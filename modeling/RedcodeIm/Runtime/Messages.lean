import Mathlib.Algebra.Ring.Int.Defs
import Mathlib.Data.List.Infix
import RedcodeIm.Database.Models
import RedcodeIm.Lib.Text

/-!
# The contents of messages

What a client sends, what is kept of it, and the checks between the two, under the names of
`handlers/message.rs`.

* `MessagePartPayload`, `NewMessagePart` — a part as it is sent, and as it is stored.
* `normalizeMessageParts` — the parts, the type and the summary of a message.
* `checkUploadPolicy`, `checkObjectKeys` — what attachments are allowed.
-/

namespace RedcodeIm

open Text

/-! ## Rows -/

inductive MessageType where
  | text
  | image
  | file
  | system
  | video
  | audio
  | mixed
  deriving DecidableEq

inductive MessagePartType where
  | text
  | image
  | video
  | audio
  | file
  deriving DecidableEq

/-- A part to be stored. -/
structure NewMessagePart where
  position : ℤ
  partType : MessagePartType
  textContent : Option String := none
  attachmentKey : Option String := none
  attachmentName : Option String := none
  attachmentMime : Option String := none
  attachmentSize : Option ℤ := none
  width : Option ℤ := none
  height : Option ℤ := none
  durationMs : Option ℤ := none
  thumbnailKey : Option String := none
  deriving DecidableEq

/-- The columns of a row of `messages` that name where it was forwarded from. -/
structure ForwardOrigin where
  messageId : Option Uuid := none
  roomId : Option Uuid := none
  senderId : Option Uuid := none
  senderUsername : Option String := none
  senderNickname : Option String := none
  deriving DecidableEq

/-- A row of `messages`. -/
structure MessageRecord where
  id : Uuid
  roomId : Uuid
  senderId : Uuid
  content : String
  encryptedContent : Option Bytes
  encryptionMetadata : Option EncryptionMetadata
  messageType : MessageType
  quotedMessageId : Option Uuid
  encryptedIdempotencyKey : Option Uuid
  forwardFrom : ForwardOrigin
  createdAt : Timestamp
  updatedAt : Timestamp
  deletedAt : Option Timestamp
  editedAt : Option Timestamp
  deriving DecidableEq

/-- A row of `messages` joined with its sender. -/
structure MessageWithSender where
  message : MessageRecord
  senderUsername : String
  senderNickname : Option String
  deriving DecidableEq

def encryptedMessagePlaceholder : String := "[加密消息]"

/-! ## Parts -/

/-- A part as a client sends it. -/
inductive MessagePartPayload where
  | text (text : String)
  | image (key : String) (name mime : Option String) (size width height : Option ℤ)
      (thumbnailKey : Option String)
  | video (key : String) (name mime : Option String) (size width height durationMs : Option ℤ)
      (thumbnailKey : Option String)
  | audio (key : String) (name mime : Option String) (size durationMs : Option ℤ)
  | file (key : String) (name mime : Option String) (size : Option ℤ)
  deriving DecidableEq

/-- The place of the n-th part, an `i16` that wraps. -/
def partPosition (n : ℕ) : ℤ := (n : ℤ).bmod 65536

/-- One part; a text of white space is no part. -/
def preparePart (position : ℤ) : MessagePartPayload → Except AppError (Option NewMessagePart)
  | .text text =>
    let trimmed := trim text
    if trimmed = "" then .ok none
    else .ok (some { position := position, partType := .text, textContent := some trimmed })
  | .image key name mime size width height thumbnailKey =>
    let trimmed := trim key
    if trimmed = "" then .error (.validationError "图片附件的 key 不能为空")
    else .ok (some {
      position := position
      partType := .image
      attachmentKey := some trimmed
      attachmentName := name
      attachmentMime := mime
      attachmentSize := size
      width := width
      height := height
      thumbnailKey := thumbnailKey })
  | .video key name mime size width height durationMs thumbnailKey =>
    let trimmed := trim key
    if trimmed = "" then .error (.validationError "视频附件的 key 不能为空")
    else .ok (some {
      position := position
      partType := .video
      attachmentKey := some trimmed
      attachmentName := name
      attachmentMime := mime
      attachmentSize := size
      width := width
      height := height
      durationMs := durationMs
      thumbnailKey := thumbnailKey })
  | .audio key name mime size durationMs =>
    let trimmed := trim key
    if trimmed = "" then .error (.validationError "语音附件的 key 不能为空")
    else .ok (some {
      position := position
      partType := .audio
      attachmentKey := some trimmed
      attachmentName := name
      attachmentMime := mime
      attachmentSize := size
      durationMs := durationMs })
  | .file key name mime size =>
    let trimmed := trim key
    if trimmed = "" then .error (.validationError "文件附件的 key 不能为空")
    else .ok (some {
      position := position
      partType := .file
      attachmentKey := some trimmed
      attachmentName := name
      attachmentMime := mime
      attachmentSize := size })

/-- The parts one after another, `n` of them before these. -/
def prepareParts (n : ℕ) : List MessagePartPayload → Except AppError (List NewMessagePart)
  | [] => .ok []
  | payload :: payloads =>
    match preparePart (partPosition n) payload with
    | .error err => .error err
    | .ok none => prepareParts n payloads
    | .ok (some part) =>
      match prepareParts (n + 1) payloads with
      | .error err => .error err
      | .ok parts => .ok (part :: parts)

/-- The text of a message becomes its first part; parts of white space are dropped. -/
def normalizedPayloads (content : Option String) (payloads : List MessagePartPayload) :
    List MessagePartPayload :=
  (match content with
    | some text => if trim text = "" then [] else [.text (trim text)]
    | none => []) ++
  payloads.filter fun
    | .text text => trim text ≠ ""
    | _ => true

def NewMessagePart.summarySegment (part : NewMessagePart) : Option String :=
  match part.partType with
  | .text => part.textContent
  | .image => some "[图片]"
  | .video => some "[视频]"
  | .audio => some "[语音]"
  | .file => some "[文件]"

def summarizeMessageParts (parts : List NewMessagePart) : String :=
  let summary := " ".intercalate (parts.filterMap NewMessagePart.summarySegment)
  if trim summary = "" then "[消息]" else summary

def inferMessageType (hasText : Bool) (attachmentTypes : List MessagePartType)
    (audioCount : ℕ) : MessageType :=
  if 0 < audioCount then .audio
  else
    match attachmentTypes.dedup with
    | [] => .text
    | [single] =>
      if hasText then .mixed
      else
        match single with
        | .image => .image
        | .video => .video
        | .file => .file
        | .audio => .audio
        | .text => .text
    | _ => .mixed

def normalizeMessageParts (content : Option String) (payloads : List MessagePartPayload) :
    Except AppError (List NewMessagePart × MessageType × String) :=
  let normalized := normalizedPayloads content payloads
  if normalized = [] then .error (.validationError "消息内容不能为空")
  else
    match prepareParts 0 normalized with
    | .error err => .error err
    | .ok parts =>
      let hasText := parts.any (·.partType = .text)
      let attachmentTypes := (parts.map (·.partType)).filter (· ≠ .text)
      let audioCount := parts.countP (·.partType = .audio)
      if parts = [] then .error (.validationError "消息内容不能为空")
      else if 0 < audioCount ∧ 1 < parts.length then
        .error (.validationError "语音消息暂不支持混合其他内容")
      else
        .ok (parts, inferMessageType hasText attachmentTypes audioCount,
          summarizeMessageParts parts)

/-! ## Attachments -/

def dangerousFileTypes : List String :=
  ["application/x-executable", "application/x-msdownload", "application/x-msdos-program",
    "application/x-sh", "application/x-bat", "application/x-csh", "application/x-ksh",
    "application/x-tcsh", "application/x-perl", "application/x-python", "application/x-ruby",
    "application/x-php", "application/javascript", "text/javascript",
    "application/java-archive", "application/vnd.android.package-archive"]

/-- What an upload policy says of one type of part. -/
structure PartTypePolicy where
  mimes : List String
  maxSizeMb : ℤ
  deriving DecidableEq

structure UploadPolicy where
  maxTotalSizeMb : ℤ
  maxAttachmentsPerMessage : ℤ
  image : PartTypePolicy
  video : PartTypePolicy
  audio : PartTypePolicy
  file : PartTypePolicy
  deriving DecidableEq

def UploadPolicy.forPartType (policy : UploadPolicy) : MessagePartType → Option PartTypePolicy
  | .image => some policy.image
  | .video => some policy.video
  | .audio => some policy.audio
  | .file => some policy.file
  | .text => none

def UploadPolicy.isMimeAllowedForPartType (policy : UploadPolicy) (partType : MessagePartType)
    (mime : String) : Bool :=
  let normalized := toAsciiLowercase (trim mime)
  if normalized = "" then false
  else
    match policy.forPartType partType with
    | none => false
    | some rule => rule.mimes.any fun v => toAsciiLowercase (trim v) = normalized

def UploadPolicy.maxSizeBytesForPartType (policy : UploadPolicy) (partType : MessagePartType) :
    Option ℤ :=
  (policy.forPartType partType).map fun rule => max 1 (min 10000 rule.maxSizeMb) * 1024 * 1024

/-- The check of one part, with the size of those before it. -/
def checkPartPolicy (policy : UploadPolicy) (totalSize : ℤ) (part : NewMessagePart) :
    Except AppError ℤ :=
  if part.partType = .text then .ok totalSize
  else
    let mime := trim (part.attachmentMime.getD "")
    if mime ≠ "" ∧ (dangerousFileTypes.contains (toAsciiLowercase mime) ∨
        ¬ policy.isMimeAllowedForPartType part.partType mime) then
      .error (.validationError ("不支持的文件类型: " ++ mime))
    else
      match part.attachmentSize with
      | none => .ok totalSize
      | some size =>
        if size ≤ 0 then .ok totalSize
        else
          match policy.maxSizeBytesForPartType part.partType with
          | none => .ok (min (totalSize + size) (2 ^ 63 - 1))
          | some maxBytes =>
            if maxBytes < size then
              .error (.validationError s!"文件大小超出限制，最大允许{maxBytes / 1024 / 1024}MB")
            else .ok (min (totalSize + size) (2 ^ 63 - 1))

def checkUploadPolicy (policy : UploadPolicy) (parts : List NewMessagePart) :
    Except AppError Unit :=
  let attachmentCount : ℤ := parts.countP (·.partType ≠ .text)
  if 0 ≤ policy.maxAttachmentsPerMessage ∧ policy.maxAttachmentsPerMessage < attachmentCount then
    .error (.validationError s!"单条消息最多可发送 {policy.maxAttachmentsPerMessage} 个附件")
  else
    match parts.foldlM (checkPartPolicy policy) 0 with
    | .error err => .error err
    | .ok totalSize =>
      if 0 < policy.maxTotalSizeMb ∧ policy.maxTotalSizeMb * 1024 * 1024 < totalSize then
        .error (.validationError s!"附件总大小超出限制，最大允许{policy.maxTotalSizeMb}MB")
      else .ok ()

def isValidMessageAttachmentObjectKey (key : String) : Bool :=
  let trimmed := (trim key).toList
  trimmed ≠ [] ∧ ¬ ['.', '.'] <:+: trimmed ∧ '\\' ∉ trimmed ∧ "messages/".toList <+: trimmed

def isMessageAttachmentObjectKeyForRoom (roomKey key : String) : Bool :=
  isValidMessageAttachmentObjectKey key ∧
    ("messages/" ++ roomKey ++ "/").toList <+: (trim key).toList

/-- The keys of a part, none of a text. -/
def NewMessagePart.objectKeys (part : NewMessagePart) : List String :=
  if part.partType = .text then [] else part.attachmentKey.toList ++ part.thumbnailKey.toList

/-- Every key of the parts is one for attachments. -/
def checkObjectKeys (parts : List NewMessagePart) : Except AppError Unit :=
  parts.forM fun part =>
    if part.partType = .text then .ok ()
    else if part.attachmentKey.any (! isValidMessageAttachmentObjectKey ·) then
      .error (.validationError "附件 key 不合法，请重新获取上传签名")
    else if part.thumbnailKey.any (! isValidMessageAttachmentObjectKey ·) then
      .error (.validationError "缩略图 key 不合法，请重新获取上传签名")
    else .ok ()

def relayOnlyAttachmentKeyForbidden : AppError :=
  .validationError "relay_only 模式附件 key 必须属于当前房间，请重新获取上传签名"

def ensureRelayOnlyAttachmentKeysBelongToRoom (roomKey : String) (parts : List NewMessagePart) :
    Except AppError Unit :=
  if (parts.flatMap NewMessagePart.objectKeys).all
      (isMessageAttachmentObjectKeyForRoom roomKey ·) then .ok ()
  else .error relayOnlyAttachmentKeyForbidden

/-- The keys of the parts, each once. -/
def collectAttachmentKeys (parts : List NewMessagePart) : List String :=
  (((parts.flatMap NewMessagePart.objectKeys).map trim).filter (· ≠ "")).mergeSort.dedup

end RedcodeIm
