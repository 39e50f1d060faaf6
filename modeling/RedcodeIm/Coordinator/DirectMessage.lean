import Mathlib.Data.List.DropRight
import RedcodeIm.Coordinator.DeviceLifecycle

/-!
# The direct-message coordinator

`E2eeDirectMessageCoordinator` of the H5 client.  Its calls run one after another
(`exclusive`); each works on the account state, the device profile and the one slot for a
pending operation.

* `resumePending` — `resumePending`, a section for each kind of operation.
* `reconcileGroup`, `bootstrapRoom` — the operations that change a group.
* `applyControlBatch`, `syncControls` — the control messages of the others.
* `preparePayload`, `doDecrypt` — application messages.

`resumePending`, `reconcileGroup` and `syncControls` call one another, so the first two take
the third as an argument, and `syncControls` takes fuel for its recursion and its loop.
-/

namespace RedcodeIm

open Awaiting

variable {σ : Type}

/-- `safeEpoch`. -/
def safeEpoch (epoch : ℕ) : Act σ ℕ :=
  if epoch ≤ 9007199254740991 then pure epoch
  else raise (.directMessage "E2EE epoch 超出安全范围")

/-- A field that is taken to be there. -/
def required {α : Type} : Option α → Act σ α
  | some a => pure a
  | none => raise .missingField

/-- `requiredProfile`. -/
def requiredProfile : Act σ DeviceProfile := do
  match ← store .readDeviceProfile with
  | some profile => pure profile
  | none => raise (.directMessage "E2EE 设备档案缺失")

/-- `storedContext`. -/
def storedContext : Act σ (DeviceProfile × σ) := do
  let profile ← requiredProfile
  match ← store .read with
  | some state => pure (profile, state)
  | none => raise (.directMessage "E2EE 协议状态缺失")

/-! ## Pending operations -/

/-- The id of the last Commit of a list of controls. -/
def lastCommitId (controls : List PendingControl) : Option Uuid :=
  ((controls.filter fun item => item.contentType = .commit).getLast?).map (·.id)

/-- Submit the controls of a pending operation, in their order. -/
def submitControls (operation : PendingOperation σ) : List PendingControl → Act σ Unit
  | [] => pure ()
  | control :: rest => do
    api (.submitControlMessage operation.roomId (control.submission operation.senderDeviceId))
    submitControls operation rest

/-- Confirm the controls of a pending operation, in their order. -/
def consumeControls (operation : PendingOperation σ) : List PendingControl → Act σ Unit
  | [] => pure ()
  | control :: rest => do
    api (.consumeControlMessage operation.roomId control.id operation.senderDeviceId)
    consumeControls operation rest

/-- `resumePending` for a bootstrap. -/
def resumeBootstrap (operation : PendingOperation σ) : Act σ Unit := do
  submitControls operation operation.controls
  let profile ← requiredProfile
  let last ← required (lastCommitId operation.controls)
  store (.write operation.nextState)
  store (.writeDeviceProfile (profile.withCommit operation.roomId last))
  store .deletePendingOperation

/-- The end of a rekey whose controls have all been accepted. -/
def finishRekey (operation : PendingOperation σ) (profile : DeviceProfile) : Act σ Unit := do
  store (.write operation.nextState)
  let last ← required (lastCommitId operation.controls)
  store (.writeDeviceProfile (profile.withCommit operation.roomId last))
  store .deletePendingOperation

/-- The way back from a rekey with a control that was not accepted: another trusted device
may have submitted the same one, the old state is restored and caught up with. -/
def restoreRekey (syncControls : String → Uuid → Act σ Unit) (operation : PendingOperation σ)
    (profile : DeviceProfile) (targetEpoch : ℕ) (err : ClientError) : Act σ Unit := do
  let latest ← api (.getRoomEpoch operation.roomId)
  if targetEpoch ≤ latest.activeEpoch then
    let previousState ← required operation.previousState
    store (.write previousState)
    store .deletePendingOperation
    syncControls profile.deviceLabel operation.roomId
  else raise err

/-- `resumePending` for a rekey. -/
def resumeRekey (syncControls : String → Uuid → Act σ Unit) (operation : PendingOperation σ) :
    Act σ Unit := do
  let profile ← requiredProfile
  let lastControl ← required operation.controls.getLast?
  match ← (submitControls operation operation.controls).attempt with
  | .ok () => finishRekey operation profile
  | .error err => restoreRekey syncControls operation profile lastControl.epoch err

/-- The profile after the controls of an inbound operation. -/
def inboundProfile (operation : PendingOperation σ) (profile : DeviceProfile) (sequenceNo : ℕ) :
    DeviceProfile :=
  match lastCommitId operation.controls with
  | some last => (profile.withCursor operation.roomId sequenceNo).withCommit operation.roomId last
  | none => profile.withCursor operation.roomId sequenceNo

/-- `resumePending` for the controls of others. -/
def resumeInbound (operation : PendingOperation σ) : Act σ Unit := do
  let profile ← requiredProfile
  store (.write operation.nextState)
  let sequenceNo ← required (operation.controls.getLast?.bind (·.sequenceNo))
  store (.writeDeviceProfile (inboundProfile operation profile sequenceNo))
  consumeControls operation operation.controls
  store .deletePendingOperation

/-- `resumePending` for an application message. -/
def resumeApplication (operation : PendingOperation σ) : Act σ Uuid := do
  let epoch ← required operation.epoch
  let ciphertext ← required operation.ciphertext
  let response ← api (.sendEncryptedMessage
    { roomId := operation.roomId
      senderDeviceId := operation.senderDeviceId
      epoch := epoch
      ciphertext := ciphertext
      idempotencyKey := operation.idempotencyKey
      controlMessageId := operation.controlMessageId })
  store (.write operation.nextState)
  store .deletePendingOperation
  pure response

/-- `resumePending`. -/
def resumePending (syncControls : String → Uuid → Act σ Unit) (allowApplication : Bool) :
    Act σ (Option Uuid) := do
  match ← store .readPendingOperation with
  | none => pure none
  | some operation =>
    match operation.kind with
    | .bootstrap => resumeBootstrap operation >>= fun _ => pure none
    | .rekey => resumeRekey syncControls operation >>= fun _ => pure none
    | .inbound => resumeInbound operation >>= fun _ => pure none
    | .application =>
      if allowApplication then some <$> resumeApplication operation
      else raise (.directMessage "存在待手动重试的 E2EE 消息")

/-! ## Changes of a group -/

/-- The devices of the members, `userId/deviceId`, each once. -/
def serverMembers (memberDevices : List RoomMemberDevices) : List Leaf :=
  (memberDevices.flatMap fun member => member.devices.map fun device =>
    (⟨member.userId, device⟩ : Leaf)).eraseDups

/-- The local group against the devices of the members: what is to be removed, what is to be
added. -/
def memberDifference (localMembers : List Leaf) (memberDevices : List RoomMemberDevices) :
    List Leaf × List Leaf :=
  (localMembers.filter fun identity => identity ∉ serverMembers memberDevices,
    (serverMembers memberDevices).filter fun identity => identity ∉ localMembers)

/-- The state and the controls of a change so far. -/
abbrev GroupDraft (σ : Type) : Type := σ × List PendingControl

/-- Remove a leaf; one the group does not have is passed over. -/
def draftRemoval (roomId : Uuid) (membershipRevision : ℕ) (draft : GroupDraft σ)
    (identity : Leaf) : Act σ (GroupDraft σ) := do
  match ← (core (.removeMember draft.1 roomId identity)).attempt with
  | .error .memberNotFound => pure draft
  | .error err => raise err
  | .ok removed =>
    let id ← newId
    let epoch ← safeEpoch removed.epoch
    pure (removed.state, draft.2 ++
      [{ id := id, epoch := epoch, membershipRevision := membershipRevision,
         contentType := .commit, envelope := removed.commit, recipientDeviceId := none,
         sequenceNo := none }])

/-- Add a device with a key package of it: a Commit for the group and a Welcome for the
device. -/
def draftAddition (roomId senderDeviceId : Uuid) (membershipRevision : ℕ) (draft : GroupDraft σ)
    (deviceId : Uuid) : Act σ (GroupDraft σ) := do
  let keyPackage ← api (.claimKeyPackage roomId senderDeviceId deviceId)
  let added ← core (.addMember draft.1 roomId keyPackage)
  let epoch ← safeEpoch added.epoch
  let commitId ← newId
  let welcomeId ← newId
  pure (added.state, draft.2 ++
    [{ id := commitId, epoch := epoch, membershipRevision := membershipRevision,
       contentType := .commit, envelope := added.commit, recipientDeviceId := none,
       sequenceNo := none },
     { id := welcomeId, epoch := epoch, membershipRevision := membershipRevision,
       contentType := .welcome, envelope := added.welcome, recipientDeviceId := some deviceId,
       sequenceNo := none }])

/-- `core.listMembers`, whose failure is reported as a missing group. -/
def localGroupMembers (state : σ) (roomId : Uuid) : Act σ (List Leaf) := do
  match ← (core (.listMembers state roomId)).attempt with
  | .ok members => pure members
  | .error _ => raise (.directMessage "房间 E2EE group 状态缺失，无法收敛成员变化")

/-- The part of `reconcileGroup` that changes the group of a device that has joined. -/
def rekeyGroup (syncControls : String → Uuid → Act σ Unit) (roomId : Uuid) (epoch : RoomEpoch)
    (profile : DeviceProfile) (state : σ) : Act σ Unit := do
  let memberDevices ← api (.listRoomMemberDevices roomId)
  let localMembers ← localGroupMembers state roomId
  let difference := memberDifference localMembers memberDevices
  if difference.1 = [] ∧ difference.2 = [] then pure ()
  else
    let removed ← difference.1.foldlM (draftRemoval roomId epoch.membershipRevision) (state, [])
    let draft ← (difference.2.map (·.deviceId)).foldlM
      (draftAddition roomId profile.deviceId epoch.membershipRevision) removed
    if draft.2 = [] then pure ()
    else
      let idempotencyKey ← newId
      store (.writePendingOperation
        { kind := .rekey, roomId := roomId, nextState := draft.1,
          senderDeviceId := profile.deviceId, idempotencyKey := idempotencyKey,
          controls := draft.2, ciphertext := none, epoch := none, controlMessageId := none,
          previousState := some state })
      let _ ← resumePending syncControls false
      pure ()

/-- `reconcileGroup`. -/
def reconcileGroup (syncControls : String → Uuid → Act σ Unit) (roomId : Uuid) : Act σ Unit := do
  let epoch ← api (.getRoomEpoch roomId)
  if epoch.status = .rekeyRequired then
    let context ← storedContext
    if context.1.joined roomId then
      rekeyGroup syncControls roomId epoch context.1 context.2
    else pure ()
  else pure ()

/-- `bootstrapRoom`. -/
def bootstrapRoom (syncControls : String → Uuid → Act σ Unit) (accountId roomId : Uuid)
    (profile : DeviceProfile) (state : σ) (membershipRevision : ℕ) : Act σ Unit := do
  let memberDevices ← api (.listRoomMemberDevices roomId)
  let others := memberDevices.filter fun member => member.userId ≠ accountId
  let devices := others.flatMap (·.devices)
  if others.any fun member => member.devices = [] then
    raise (.directMessage "房间存在没有可用 E2EE 设备的成员")
  else if devices = [] then raise (.directMessage "房间没有其他可用的 E2EE 设备")
  else
    let created ← core (.createGroup state roomId)
    let draft ← devices.foldlM
      (draftAddition roomId profile.deviceId membershipRevision) (created, [])
    let idempotencyKey ← newId
    store (.writePendingOperation
      { kind := .bootstrap, roomId := roomId, nextState := draft.1,
        senderDeviceId := profile.deviceId, idempotencyKey := idempotencyKey,
        controls := draft.2, ciphertext := none, epoch := none, controlMessageId := none,
        previousState := none })
    let _ ← resumePending syncControls false
    pure ()

/-! ## The control messages of the others -/

/-- Process the Commits of a batch. -/
def processCommits (roomId : Uuid) : List ControlMessage → σ → Act σ σ
  | [], state => pure state
  | message :: rest, state => do
    if message.contentType = .commit then
      let result ← core (.processCommit state roomId message.envelope)
      let epoch ← safeEpoch result.2
      if epoch = message.epoch then processCommits roomId rest result.1
      else raise (.directMessage "Commit epoch 与本地状态不一致")
    else raise (.directMessage "已入群设备收到意外 Welcome")

/-- The index of the first Welcome. -/
def welcomeIndex (messages : List ControlMessage) : Option ℕ :=
  messages.findIdx? fun message => message.contentType = .welcome

/-- The Commit that a Welcome at an index belongs to. -/
def matchingCommit (messages : List ControlMessage) (index epoch : ℕ) : Option ControlMessage :=
  ((messages.take (index + 1)).filter fun message =>
    message.contentType = .commit ∧ message.epoch = epoch).getLast?

/-- Join with the first Welcome of a batch and process what follows it. -/
def joinWithBatch (roomId : Uuid) (messages : List ControlMessage) (state : σ) (index : ℕ)
    (welcome : ControlMessage) : Act σ σ := do
  match matchingCommit messages index welcome.epoch with
  | none => raise (.directMessage "Welcome 缺少对应的 E2EE Commit")
  | some _ =>
    let result ← core (.joinGroup state welcome.envelope)
    let epoch ← safeEpoch result.2
    if epoch = welcome.epoch then processCommits roomId (messages.drop (index + 1)) result.1
    else raise (.directMessage "Welcome epoch 与本地状态不一致")

/-- `applyControlBatch`. -/
def applyControlBatch (profile : DeviceProfile) (state : σ) (roomId : Uuid)
    (messages : List ControlMessage) : Act σ (Option σ) := do
  if profile.joined roomId then some <$> processCommits roomId messages state
  else
    match welcomeIndex messages with
    | none => pure none
    | some index =>
      let welcome ← required messages[index]?
      some <$> joinWithBatch roomId messages state index welcome

/-- The control of a pending operation that stands for a listed message. -/
def ControlMessage.pending (message : ControlMessage) : PendingControl where
  id := message.id
  epoch := message.epoch
  membershipRevision := message.membershipRevision
  contentType := message.contentType
  envelope := message.envelope
  recipientDeviceId := none
  sequenceNo := some message.sequenceNo

/-- The operation that a batch of listed messages becomes. -/
def inboundOperation (roomId : Uuid) (profile : DeviceProfile) (nextState : σ)
    (messages : List ControlMessage) (last : ControlMessage) : PendingOperation σ where
  kind := .inbound
  roomId := roomId
  nextState := nextState
  senderDeviceId := profile.deviceId
  idempotencyKey := last.id
  controls := messages.map (·.pending)
  ciphertext := none
  epoch := none
  controlMessageId := none
  previousState := none

/-- How many control messages a page has at most. -/
def controlPageLimit : ℕ := 100

/-- The loop of `syncControls` over the pages. -/
def syncPages (syncControls : String → Uuid → Act σ Unit) (roomId : Uuid) : ℕ → Act σ Unit
  | 0 => .spent
  | fuel + 1 => do
    let context ← storedContext
    let messages ← api (.listControlMessages roomId context.1.deviceId
      (context.1.cursor roomId) controlPageLimit)
    match messages.getLast? with
    | none => pure ()
    | some last =>
      match ← applyControlBatch context.1 context.2 roomId messages with
      | none => pure ()
      | some nextState =>
        store (.writePendingOperation (inboundOperation roomId context.1 nextState messages last))
        let _ ← resumePending syncControls false
        if messages.length < controlPageLimit then pure ()
        else syncPages syncControls roomId fuel

/-- `syncControls`. -/
def syncControls (accountId : Uuid) : ℕ → String → Uuid → Act σ Unit
  | 0, _, _ => .spent
  | fuel + 1, deviceLabel, roomId => do
    let _ ← resumePending (syncControls accountId fuel) false
    let _ ← ensureReady accountId deviceLabel
    reconcileGroup (syncControls accountId fuel) roomId
    syncPages (syncControls accountId fuel) roomId fuel

/-! ## Application messages -/

/-- `validateIdentity`. -/
def validIdentity (identity : RootIdentity) : Bool :=
  identity.publicKey ≠ [] ∧ 16 ≤ identity.fingerprint.length ∧ identity.protocolVersion = 1

/-- `E2eeIdentityTrustManager.observe`: the first identity of a user is trusted, another one
waits for the user's decision. -/
def observeIdentity (identity : RootIdentity) : Act σ Unit := do
  if validIdentity identity then
    let records ← store .readRecords
    match records identity.userId with
    | none =>
      store (.writeRecords
        (Function.update records identity.userId (some { trusted := identity, pending := none })))
    | some existing =>
      if existing.trusted = identity then pure ()
      else store (.writeRecords (Function.update records identity.userId
        (some { trusted := existing.trusted, pending := some identity })))
  else raise (.identityNotTrusted "E2EE 根身份无效")

/-- `E2eeIdentityTrustManager.requireTrusted`. -/
def requireTrusted (userId : Uuid) : Act σ Unit := do
  let records ← store .readRecords
  match records userId with
  | none => raise (.identityNotTrusted "联系人 E2EE 身份尚未验证")
  | some existing =>
    if existing.pending.isSome then
      raise (.identityNotTrusted "联系人 E2EE 身份已变化，核验安全码后才能发送")
    else pure ()

/-- The identities of the other members are the trusted ones. -/
def requireTrustedMembers : List Uuid → Act σ Unit
  | [] => pure ()
  | userId :: rest => do
    let identity ← api (.fetchRootIdentity userId)
    observeIdentity identity
    requireTrusted userId
    requireTrustedMembers rest

/-- What a message is prepared from. -/
structure PayloadInput where
  accountId : Uuid
  deviceLabel : String
  roomId : Uuid
  text : Option String
  parts : List AttachmentPart
  deriving DecidableEq

/-- The characters that `String.prototype.trim` removes. -/
def jsWhitespace (c : Char) : Bool :=
  c.toNat ∈ [9, 10, 11, 12, 13, 32, 160, 5760, 8232, 8233, 8239, 8287, 12288, 65279]
    ∨ 8192 ≤ c.toNat ∧ c.toNat ≤ 8202

/-- `String.prototype.trim`. -/
def jsTrim (text : String) : String :=
  String.ofList ((text.toList.dropWhile jsWhitespace).rdropWhile jsWhitespace)

/-- The checks of `preparePayload`. -/
def checkPayload (input : PayloadInput) : Option ClientError :=
  if input.parts = [] then
    if (jsTrim (input.text.getD "")).isEmpty then
      some (.directMessage "加密消息内容不能为空")
    else none
  else if input.parts.any fun part => part.partKey.isEmpty || part.objectKey.isEmpty
      || part.nonce.length != 12 || part.dek.length != 32 then
    some (.directMessage "加密附件密钥参数不完整")
  else none

/-- `buildApplicationPayload`. -/
def buildApplicationPayload (input : PayloadInput) : ApplicationPayload :=
  if input.parts = [] then .text (jsTrim (input.text.getD ""))
  else .attachment none input.parts

/-- The room is bootstrapped where it has no group yet, and everything is read again. -/
def ensureGroup (syncControls : String → Uuid → Act σ Unit) (input : PayloadInput)
    (context : DeviceProfile × σ) (epoch : RoomEpoch) :
    Act σ ((DeviceProfile × σ) × RoomEpoch) := do
  if epoch.activeEpoch = 0 then
    bootstrapRoom syncControls input.accountId input.roomId context.1 context.2
      epoch.membershipRevision
    let context ← storedContext
    let epoch ← api (.getRoomEpoch input.roomId)
    pure (context, epoch)
  else pure (context, epoch)

/-- Encrypt a payload and keep what is to be sent. -/
def encryptPayload (input : PayloadInput) (profile : DeviceProfile) (state : σ)
    (epoch : RoomEpoch) : Act σ Unit := do
  if epoch.status = .active then
    match profile.lastCommitMessageIds input.roomId with
    | none => raise (.directMessage "房间缺少当前 E2EE Commit 索引")
    | some controlMessageId =>
      let encrypted ← core (.encrypt state input.roomId (buildApplicationPayload input))
      let encryptedEpoch ← safeEpoch encrypted.epoch
      if encryptedEpoch = epoch.activeEpoch then
        let idempotencyKey ← newId
        store (.writePendingOperation
          { kind := .application, roomId := input.roomId, nextState := encrypted.state,
            senderDeviceId := profile.deviceId, idempotencyKey := idempotencyKey,
            controls := [], ciphertext := some encrypted.ciphertext,
            epoch := some encryptedEpoch, controlMessageId := some controlMessageId,
            previousState := none })
      else raise (.directMessage "本地 E2EE epoch 已过期")
  else raise (.directMessage "房间 E2EE 状态尚未就绪")

/-- `preparePayload`. -/
def preparePayload (fuel : ℕ) (input : PayloadInput) : Act σ Unit := do
  match checkPayload input with
  | some err => raise err
  | none =>
    syncControls input.accountId fuel input.deviceLabel input.roomId
    let context ← storedContext
    let memberDevices ← api (.listRoomMemberDevices input.roomId)
    requireTrustedMembers ((memberDevices.map (·.userId)).filter (· ≠ input.accountId))
    let epoch ← api (.getRoomEpoch input.roomId)
    let ready ← ensureGroup (syncControls input.accountId fuel) input context epoch
    encryptPayload input ready.1.1 ready.1.2 ready.2

/-- `doDecrypt`. -/
def doDecrypt (fuel : ℕ) (accountId : Uuid) (deviceLabel : String) (roomId : Uuid)
    (ciphertext : Bytes) : Act σ (ApplicationPayload × ℕ) := do
  if ciphertext = [] then raise (.directMessage "E2EE 密文不能为空")
  else
    syncControls accountId fuel deviceLabel roomId
    let context ← storedContext
    let decrypted ← core (.decrypt context.2 roomId ciphertext)
    match decrypted.payload with
    | none => raise (.directMessage "E2EE 消息负载格式无效")
    | some payload =>
      store (.write decrypted.state)
      let epoch ← safeEpoch decrypted.epoch
      pure (payload, epoch)

/-- The calls of the coordinator. -/
inductive CoordinatorCall where
  /-- `sendText`, `sendAttachment`. -/
  | send (input : PayloadInput)
  /-- `prepareText`, `prepareAttachment`. -/
  | prepare (input : PayloadInput)
  /-- `syncControlMessages`. -/
  | sync (deviceLabel : String) (roomId : Uuid)
  /-- `retryPendingSend`. -/
  | retry
  /-- `decryptText`, `decryptPayload`. -/
  | decrypt (deviceLabel : String) (roomId : Uuid) (ciphertext : Bytes)
  deriving DecidableEq

/-- What a call of the coordinator does while it has the coordinator for itself. -/
def CoordinatorCall.action (accountId : Uuid) (fuel : ℕ) : CoordinatorCall → Act σ Unit
  | .send input => do
    preparePayload fuel { input with accountId := accountId }
    let _ ← resumePending (syncControls accountId fuel) true
    pure ()
  | .prepare input => preparePayload fuel { input with accountId := accountId }
  | .sync deviceLabel roomId => syncControls accountId fuel deviceLabel roomId
  | .retry => do
    match ← resumePending (syncControls accountId fuel) true with
    | some _ => pure ()
    | none => raise (.directMessage "没有待重试的 E2EE 消息")
  | .decrypt deviceLabel roomId ciphertext => do
    let _ ← doDecrypt fuel accountId deviceLabel roomId ciphertext
    pure ()

end RedcodeIm
