import RedcodeIm.Attachments.Store
import RedcodeIm.Runtime.MessageHandlers

/-!
# The handlers of attachments

The handlers of `message.rs` by which a member of a room uploads an attachment, commits it and
downloads it, one effect for each statement or call of the storage and the cache.

* `generateMessageAttachmentSignature`, `initiateMessageAttachmentMultipartUpload` — a key to
  upload to, or one that is there already.
* `commitMessageAttachmentUpload` — the upload is complete.
* `generateMessageAttachmentDownloadUrl` — who may download.
-/

namespace RedcodeIm

open Awaiting

/-! ## Effects -/

/-- What `head_object` says of an object. -/
structure ObjectHead where
  contentLength : Option ℕ
  etag : Option String
  deriving DecidableEq

/-- What the handlers of attachments await, besides what those of messages do. -/
inductive AttachmentEffect where
  | service (e : ServiceEffect)
  /-- `Utc::now().format("%Y%m%d")`. -/
  | today
  /-- The first eight digits of a random UUID. -/
  | randomDigits
  | findCompletedByHash (storageProviderId : Uuid) (hashAlg : ℕ) (hashValue : String)
      (fileSize : ℕ) (keySpace : String)
  | fileExists (objectKey : String)
  | headObject (objectKey : String)
  | markDeletedByKey (storageProviderId : Uuid) (objectKey : String) (lastError : Option String)
  | createPendingRecord (upload : PendingUpload)
  | getByKey (storageProviderId : Uuid) (objectKey : String)
  | recordRoomAttachmentCommit (storageProviderId roomId : Uuid) (objectKey : String)
      (uploadedBy : Uuid) (fileSize : Option ℕ)
  | roomHasMessageObjectKey (roomId : Uuid) (objectKey : String)
  | claimRoomAttachmentAccess (roomId : Uuid) (objectKey : String) (accessedBy : Uuid)
  /-- The seconds that a grant of the relay is still good for. -/
  | grantRemaining (roomId : Uuid) (objectKey : String)
  | generateDirectUploadSignature (objectKey : String) (contentType : Option String)
  /-- The size and the number of the parts of an upload. -/
  | planMultipartUpload (fileSize : ℕ)
  | initiateMultipartUpload (objectKey : String) (contentType : Option String)
  | abortMultipartUpload (objectKey uploadId : String)
  | createSession (storageProviderId : Uuid) (objectKey uploadId : String) (creatorId : Uuid)
      (fileSize : ℕ) (contentType : Option String) (partSize totalParts : ℤ)
  | getCachedDownloadUrl (objectKey : String) (storageProviderId : Uuid) (expires : ℕ)
  | generateDownloadUrl (objectKey : String) (expires : ℕ)
  | cacheDownloadUrl (objectKey : String) (storageProviderId : Uuid) (expires : ℕ) (url : String)

abbrev AttachmentEffect.Reply : AttachmentEffect → Type
  | .service e => e.Reply
  | .today => String
  | .randomDigits => String
  | .findCompletedByHash .. => Option FileUploadRecord
  | .fileExists _ => Bool
  | .headObject _ => ObjectHead
  | .markDeletedByKey .. => Bool
  | .createPendingRecord _ => FileUploadRecord
  | .getByKey .. => Option FileUploadRecord
  | .recordRoomAttachmentCommit .. => Bool
  | .roomHasMessageObjectKey .. => Bool
  | .claimRoomAttachmentAccess .. => Bool
  | .grantRemaining .. => Option ℕ
  | .generateDirectUploadSignature .. => String
  | .planMultipartUpload _ => ℤ × ℤ
  | .initiateMultipartUpload .. => String
  | .abortMultipartUpload .. => Unit
  | .createSession .. => Uuid
  | .getCachedDownloadUrl .. => Option String
  | .generateDownloadUrl .. => String
  | .cacheDownloadUrl .. => Unit

abbrev AttachmentService : Signature := ⟨AttachmentEffect, AttachmentEffect.Reply, AppError⟩

abbrev AttachmentAction (α : Type) : Type := Action AttachmentService α

/-- The statements of the services are among those of the attachments. -/
def serviceEmbedding : Action.Embedding Service AttachmentService where
  effect := .service
  answer := fun _ r => r
  error := id

/-- A program of the services. -/
def onService {α : Type} (p : ServiceAction α) : AttachmentAction α := p.embed serviceEmbedding

def awaitAttachment (e : AttachmentEffect) : AttachmentAction e.Reply :=
  Action.perform (S := AttachmentService) e

/-- A check that may end the call, in its place (`?`). -/
def ensureAttachment {α : Type} : Except AppError α → AttachmentAction α
  | .ok a => .done a
  | .error err => .fail err

/-! ## Keys -/

/-- What follows the last `sep`, if there is one (`rsplit_once`). -/
def afterLast (sep : Char) (s : String) : Option String :=
  if sep ∈ s.toList then
    some (String.ofList ((s.toList.reverse.takeWhile (· ≠ sep)).reverse))
  else none

/-- A name that is not empty. -/
def nonempty (s : String) : Option String := if s = "" then none else some s

def MessagePartType.defaultExtension : MessagePartType → String
  | .image => ".png"
  | .video => ".mp4"
  | .audio => ".m4a"
  | .file => ".bin"
  | .text => ".txt"

def inferAttachmentExtension (filename contentType : Option String)
    (partType : MessagePartType) : String :=
  match (filename.bind (afterLast '.')).bind nonempty with
  | some ext => "." ++ Text.toAsciiLowercase ext
  | none =>
    match (contentType.bind fun mime =>
      afterLast '/' (Text.toAsciiLowercase (Text.trim mime))).bind nonempty with
    | some ext => "." ++ ext
    | none => partType.defaultExtension

def MessagePartType.category : MessagePartType → String
  | .text => "text"
  | .image => "images"
  | .video => "videos"
  | .audio => "audios"
  | .file => "files"

/-- The space of the keys of a room, `messages/{room_id}/`. -/
def attachmentSpace (roomId : Uuid) : String := "messages/" ++ toString roomId ++ "/"

def buildMessageAttachmentKey (roomId : Uuid) (partType : MessagePartType)
    (filename contentType : Option String) : AttachmentAction String := do
  let date ← awaitAttachment .today
  let random ← awaitAttachment .randomDigits
  let extension := inferAttachmentExtension filename contentType partType
  return attachmentSpace roomId ++ (partType.category ++ "_" ++ date ++ "/" ++ random ++ extension)

/-! ## Uploading -/

/-- A type of file that the policy allows for the part, if it is named. -/
def checkAttachmentMime (policy : UploadPolicy) (partType : MessagePartType)
    (contentType : Option String) : Except AppError Unit :=
  let mime := Text.trim (contentType.getD "")
  if mime ≠ "" ∧ (dangerousFileTypes.contains (Text.toAsciiLowercase mime) ∨
      ¬ policy.isMimeAllowedForPartType partType mime) then
    .error (.validationError ("不支持的文件类型: " ++ mime))
  else .ok ()

def fileSizeExceeded (policy : UploadPolicy) (partType : MessagePartType) (fileSize : ℕ) :
    Option ℤ :=
  (policy.maxSizeBytesForPartType partType).filter fun maxSize => maxSize < fileSize

structure AttachmentSignatureRequest where
  partType : MessagePartType
  filename : Option String
  contentType : Option String
  fileSize : Option ℕ
  hashValue : Option String
  hashAlg : Option ℕ
  deriving DecidableEq

structure AttachmentMultipartInitiateRequest where
  partType : MessagePartType
  filename : Option String
  contentType : Option String
  fileSize : ℕ
  hashValue : Option String
  hashAlg : Option ℕ
  deriving DecidableEq

/-- A completed upload of the room with the same content, whose object is still there. -/
def findReusable (provider roomId : Uuid) (hashAlg : ℕ) (hashValue : String) (fileSize : ℕ) :
    AttachmentAction (Option String) := do
  match ← awaitAttachment
    (.findCompletedByHash provider hashAlg hashValue fileSize (attachmentSpace roomId)) with
  | none => return none
  | some existing =>
    if ← awaitAttachment (.fileExists existing.objectKey) then return some existing.objectKey
    else
      let _ ← (awaitAttachment (.markDeletedByKey provider existing.objectKey
        (some "对象不存在，已标记为删除"))).attempt
      return none

/-- The content as it was announced, if there is any (`file_size > 0`). -/
def AttachmentSignatureRequest.content (req : AttachmentSignatureRequest) :
    Option (ℕ × String × ℕ) :=
  match req.hashValue, req.fileSize with
  | some hashValue, some fileSize =>
    if 0 < fileSize then some (req.hashAlg.getD 1, hashValue, fileSize) else none
  | _, _ => none

def AttachmentMultipartInitiateRequest.content (req : AttachmentMultipartInitiateRequest) :
    Option (ℕ × String × ℕ) :=
  match req.hashValue.map Text.trim with
  | some hashValue => if hashValue ≠ "" then some (req.hashAlg.getD 1, hashValue, req.fileSize)
      else none
  | none => none

/-- A key to be uploaded to: one whose object is there, or a new one with its pending record. -/
def reserveKey (provider roomId : Uuid) (partType : MessagePartType)
    (filename contentType : Option String) (content : Option (ℕ × String × ℕ)) :
    AttachmentAction (String × Bool) := do
  let reusable ← match content with
    | some (hashAlg, hashValue, fileSize) => findReusable provider roomId hashAlg hashValue fileSize
    | none => pure none
  match reusable with
  | some key => return (key, true)
  | none => do
    let key ← buildMessageAttachmentKey roomId partType filename contentType
    match content with
    | some (hashAlg, hashValue, fileSize) => do
      let _ ← awaitAttachment (.createPendingRecord
        ⟨provider, key, hashAlg, hashValue, some fileSize, contentType⟩)
      return (key, false)
    | none => return (key, false)

/-- What a member is given to upload with. -/
inductive AttachmentUpload where
  /-- The object is there. -/
  | reused (key : String)
  | direct (key signature : String)
  | multipart (key : String) (sessionId : Uuid) (partSize totalParts : ℤ)
  deriving DecidableEq

def generateMessageAttachmentSignature (roomId userId : Uuid)
    (req : AttachmentSignatureRequest) : AttachmentAction AttachmentUpload := do
  onService (ensureMember roomId userId "用户不在该房间，无法上传附件")
  if req.partType = .text then .fail (.validationError "纯文本内容无需生成上传签名")
  else
    let policy ← onService (awaitMessage .getUploadPolicy)
    ensureAttachment (checkAttachmentMime policy req.partType req.contentType)
    match req.fileSize.bind (fileSizeExceeded policy req.partType) with
    | some maxSize => .fail (.validationError s!"文件大小超出限制，最大允许{maxSize / 1024 / 1024}MB")
    | none =>
      let provider ← onService loadDefaultStorageProvider
      let (key, reused) ← reserveKey provider roomId req.partType req.filename req.contentType
        req.content
      if reused then return .reused key
      else
        let signature ← awaitAttachment (.generateDirectUploadSignature key req.contentType)
        return .direct key signature

def initiateMessageAttachmentMultipartUpload (roomId userId : Uuid)
    (req : AttachmentMultipartInitiateRequest) : AttachmentAction AttachmentUpload := do
  onService (ensureMember roomId userId "用户不在该房间，无法上传附件")
  if req.partType = .text then .fail (.validationError "纯文本内容无需分片上传")
  else if req.fileSize = 0 then .fail (.validationError "file_size 必填且必须大于 0")
  else
    let policy ← onService (awaitMessage .getUploadPolicy)
    ensureAttachment (checkAttachmentMime policy req.partType req.contentType)
    match fileSizeExceeded policy req.partType req.fileSize with
    | some maxSize =>
      .fail (.validationError s!"文件大小超过限制: {req.fileSize} bytes（最大允许 {maxSize} bytes）")
    | none =>
      let (partSize, totalParts) ← awaitAttachment (.planMultipartUpload req.fileSize)
      let provider ← onService loadDefaultStorageProvider
      let (key, reused) ← reserveKey provider roomId req.partType req.filename req.contentType
        req.content
      if reused then return .reused key
      else
        let contentType := (req.contentType.map Text.trim).bind nonempty
        let uploadId ← awaitAttachment (.initiateMultipartUpload key contentType)
        match ← (awaitAttachment (.createSession provider key uploadId userId req.fileSize
          contentType partSize totalParts)).attempt with
        | .ok sessionId => return .multipart key sessionId partSize totalParts
        | .error _ =>
          let _ ← (awaitAttachment (.abortMultipartUpload key uploadId)).attempt
          .fail (.internalError "创建分片会话失败")

/-! ## Committing -/

structure AttachmentCommitRequest where
  key : String
  hashValue : Option String
  hashAlg : Option ℕ
  fileSize : Option ℕ
  deriving DecidableEq

def isHex32 (value : String) : Bool :=
  let v := (Text.trim value).toList
  v.length = 32 && v.all fun c => c.isDigit || ('a' ≤ c && c ≤ 'f') || ('A' ≤ c && c ≤ 'F')

def normalizeHashHex (value : String) : String := Text.toAsciiLowercase (Text.trim value)

/-- The object is as long as it was announced, and has the hash, as far as both are known. -/
def checkObjectHead (req : AttachmentCommitRequest) (head : ObjectHead) : Except AppError Unit :=
  match req.fileSize.bind fun expected =>
    (head.contentLength.filter (· ≠ expected)).map (expected, ·) with
  | some (expected, actual) =>
    .error (.validationError s!"附件大小校验失败：期望 {expected} 字节，实际 {actual} 字节")
  | none =>
    match req.hashValue.map Text.trim, head.etag with
    | some hashValue, some etag =>
      if hashValue ≠ "" ∧ req.hashAlg.getD 1 = 1 ∧ '-' ∉ etag.toList ∧ isHex32 etag ∧
          isHex32 hashValue ∧ normalizeHashHex etag ≠ normalizeHashHex hashValue then
        .error (.validationError "附件哈希校验失败，请重新上传")
      else .ok ()
    | _, _ => .ok ()

def attachmentObjectNotFound : AppError := .notFound "对象存储中尚未找到该附件，请稍后重试"

/-- The object is there. -/
def ensureObject (req : AttachmentCommitRequest) (key : String) : AttachmentAction Unit := do
  match ← (awaitAttachment (.headObject key)).attempt with
  | .ok head => ensureAttachment (checkObjectHead req head)
  | .error (.notFound _) => .fail attachmentObjectNotFound
  | .error (.validationError _) =>
    -- A provider without `head_object` is asked whether the object exists.
    if ← awaitAttachment (.fileExists key) then return () else .fail attachmentObjectNotFound
  | .error err => .fail err

/-- A record of the key, pending where it is new. -/
def ensurePending (provider : Uuid) (req : AttachmentCommitRequest) (key : String) :
    AttachmentAction Unit := do
  match ← awaitAttachment (.getByKey provider key) with
  | some _ => return ()
  | none =>
    let _ ← awaitAttachment (.createPendingRecord ⟨provider, key, 0, key, req.fileSize, none⟩)
    return ()

/-- The record of the key is pending again where its content is announced, and there is one. -/
def ensureRecord (provider : Uuid) (req : AttachmentCommitRequest) (key : String) :
    AttachmentAction Unit := do
  match req.hashValue.map Text.trim, req.fileSize with
  | some hashValue, some fileSize =>
    if hashValue ≠ "" ∧ 0 < fileSize then
      let _ ← awaitAttachment (.createPendingRecord
        ⟨provider, key, req.hashAlg.getD 1, hashValue, some fileSize, none⟩)
  | _, _ => pure ()
  ensurePending provider req key

def inferMediaKind (key : String) : String :=
  let trimmed := (Text.trim key).toList
  if "/images_".toList <:+: trimmed then "image"
  else if "/videos_".toList <:+: trimmed then "video"
  else if "/audios_".toList <:+: trimmed then "audio"
  else if "/files_".toList <:+: trimmed then "document"
  else "unknown"

/-- The key of a request: not empty, and one of attachments. -/
def checkAttachmentKey (key : String) : Except AppError Unit :=
  if key = "" then .error (.validationError "附件 key 不能为空")
  else if isValidMessageAttachmentObjectKey key then .ok ()
  else .error (.validationError "附件 key 不合法")

def commitMessageAttachmentUpload (roomId userId : Uuid) (req : AttachmentCommitRequest) :
    AttachmentAction Unit := do
  onService (ensureMember roomId userId "用户不在该房间，无法提交附件上传结果")
  let key := Text.trim req.key
  ensureAttachment (checkAttachmentKey key)
  if isMessageAttachmentObjectKeyForRoom (toString roomId) key then
    let provider ← onService loadDefaultStorageProvider
    ensureObject req key
    ensureRecord provider req key
    if ← awaitAttachment (.recordRoomAttachmentCommit provider roomId key userId req.fileSize) then
      let record ← awaitAttachment (.getByKey provider key)
      let fileSize := (record.bind (·.fileSize)).or req.fileSize
      onService (awaitMessage (.upsertAuditTask provider key (inferMediaKind key)
        (record.bind (·.contentType)) (fileSize.map Int.ofNat)))
    else .fail (.forbidden "附件 object key 已由其他用户提交")
  else .fail (.validationError "附件 key 不合法")

/-! ## Downloading -/

structure AttachmentDownloadQuery where
  key : String
  expiresInSeconds : Option ℕ
  deriving DecidableEq

/-- Why a download is allowed. -/
inductive MessageAttachmentAccess where
  | persistReference
  | relayGrant (remainingSeconds : ℕ)
  deriving DecidableEq

/-- A grant of the relay that is still good, or the end of the call. -/
def relayGrantAccess (roomId : Uuid) (key : String) : AttachmentAction MessageAttachmentAccess := do
  match ← awaitAttachment (.grantRemaining roomId key) with
  | some remainingSeconds => return .relayGrant remainingSeconds
  | none => .fail (.notFound "附件不存在")

/-- Who relays only goes by the grants; who persists also by what is stored. -/
def attachmentAccess (relayOnly : Bool) (roomId userId : Uuid) (key : String) :
    AttachmentAction MessageAttachmentAccess := do
  if relayOnly then relayGrantAccess roomId key
  else
    let hasPersistReference ← awaitAttachment (.roomHasMessageObjectKey roomId key)
    let hasCommittedRoomAttachment ←
      if isMessageAttachmentObjectKeyForRoom (toString roomId) key then
        awaitAttachment (.claimRoomAttachmentAccess roomId key userId)
      else pure false
    if hasPersistReference || hasCommittedRoomAttachment then return .persistReference
    else relayGrantAccess roomId key

/-- The seconds that a link is good for, no longer than the grant. -/
def MessageAttachmentAccess.expires (access : MessageAttachmentAccess) (requested : Option ℕ) : ℕ :=
  let requestedExpires := max 60 (min 86400 (requested.getD 600))
  match access with
  | .persistReference => requestedExpires
  | .relayGrant remainingSeconds => min requestedExpires remainingSeconds

/-- The link, from the cache or anew. -/
def downloadUrl (provider : Uuid) (key : String) (expires : ℕ) : AttachmentAction String := do
  match ← (awaitAttachment (.getCachedDownloadUrl key provider expires)).attempt with
  | .ok (some cached) => return cached
  | _ =>
    let url ← awaitAttachment (.generateDownloadUrl key expires)
    let _ ← (awaitAttachment (.cacheDownloadUrl key provider expires url)).attempt
    return url

def generateMessageAttachmentDownloadUrl (roomId userId : Uuid)
    (query : AttachmentDownloadQuery) : AttachmentAction String := do
  onService (ensureMember roomId userId "用户不在该房间，无法获取附件")
  let key := Text.trim query.key
  ensureAttachment (checkAttachmentKey key)
  let relayOnly ← onService isRelayOnlyRuntime
  let access ← attachmentAccess relayOnly roomId userId key
  let provider ← onService loadDefaultStorageProvider
  downloadUrl provider key (access.expires query.expiresInSeconds)

end RedcodeIm
