import RedcodeIm.H5.ChatStore

/-!
# Encrypted messages of the web client

What `services/message-service.ts` makes of a message that is encrypted.  Each is decrypted once,
and what came of it is kept in memory; an attachment brings its key and its nonce along, in a
property of `raw`.

* `decryptMessage` — the message that a decryption makes of one.
* `MessageService`, `resolveEncryptedMessage` — the messages that were decrypted, and that are
  being.

Whoever is signed in stays so; what is kept for other accounts is not seen.
-/

namespace RedcodeIm.H5

/-! ## Attachments -/

/-- `E2eeAttachmentPart`. -/
structure E2eeAttachmentPart where
  partKey : String
  objectKey : String
  name : String
  mimeType : String
  size : ℤ
  partPosition : ℤ
  nonce : List UInt8
  dek : List UInt8
  deriving DecidableEq

/-- Parts as a JSON text, by which `raw` holds them, and parts again. -/
structure PartsJson where
  stringify : List E2eeAttachmentPart → String
  parse : String → Option (List E2eeAttachmentPart)
  parse_stringify : ∀ parts, parse (stringify parts) = some parts
  truthy_of_parse : ∀ {json : String} {parts : List E2eeAttachmentPart},
    parse json = some parts → truthy json = true

inductive DecryptedPayload where
  | text (text : String)
  | attachment (parts : List E2eeAttachmentPart)
  deriving DecidableEq

/-- `E2eeDecryptedPayload`. -/
structure Decrypted where
  epoch : ℕ
  payload : DecryptedPayload
  deriving DecidableEq

/-- A property of an object is set. -/
def UnknownRecord.set (record : UnknownRecord) (name json : String) : UnknownRecord :=
  if record.any fun p => p.1 = name then
    record.map fun p => if p.1 = name then (name, json) else p
  else record ++ [(name, json)]

def E2eeAttachmentPart.toAttachment (part : E2eeAttachmentPart) : MessageAttachment where
  key := part.objectKey
  name := some part.name
  mimeType := some part.mimeType
  size := some part.size
  cacheKey := some ("message:" ++ part.objectKey)

/-! ## Decryption -/

def markDecryptionFailed (message : ChatMessage) : ChatMessage :=
  { message with
    content := "[无法解密的消息]"
    status := some (some .failed)
    e2eeDecryptionFailed := some (some true) }

/-- What `encryption_metadata` must say. -/
def isApplication (metadata : UnknownRecord) : Bool :=
  metadata.lookup "protocol" = some "\"mls\"" && metadata.lookup "version" = some "1" &&
    metadata.lookup "content_type" = some "\"application\""

/-- There is something to decrypt that can be. -/
def canDecrypt (message : ChatMessage) : Bool :=
  message.encryptedContent.value.any (· ≠ "") && message.encryptionMetadata.value.any isApplication

/-- A message with what was inside it. -/
def withPayload (J : PartsJson) (accountId : String) (message : ChatMessage)
    (decrypted : Decrypted) : ChatMessage :=
  let status := if message.senderId = accountId then MessageStatus.sent else .delivered
  let raw := (message.raw.value.getD []).set "e2ee_epoch" (toString decrypted.epoch)
  match decrypted.payload with
  | .attachment parts =>
    { message with
      content := "[加密附件]"
      type := .mixed
      attachments := some (some (parts.map E2eeAttachmentPart.toAttachment))
      status := some (some status)
      e2eeDecryptionFailed := some (some false)
      raw := some (some (raw.set "e2ee_parts" (J.stringify parts))) }
  | .text text =>
    { message with
      content := text
      status := some (some status)
      e2eeDecryptionFailed := some (some false)
      raw := some (some raw) }

/-- `decryptMessage`, with what the coordinator answers. -/
def decryptMessage (J : PartsJson) (accountId : String) (message : ChatMessage)
    (outcome : Option Decrypted) : ChatMessage :=
  if canDecrypt message then
    match outcome with
    | some decrypted => withPayload J accountId message decrypted
    | none => markDecryptionFailed message
  else markDecryptionFailed message

/-! ## What is kept -/

/-- `processedEncryptedMessages` and `encryptedMessageResolutions` of an account.  A promise is
known by its number, and tells what it will resolve and, once it has, to what. -/
structure MessageService where
  processed : List (String × ChatMessage) := []
  active : List (String × ℕ) := []
  promises : List (ChatMessage × Option ChatMessage) := []

/-- What a call of `resolveEncryptedMessage` waits for. -/
inductive Resolution where
  | ready (message : ChatMessage)
  | promised (n : ℕ)

/-- `MAX_PROCESSED_E2EE_MESSAGES`. -/
def maxProcessed : ℕ := 2000

/-- The oldest are dropped, while there are too many. -/
def evict : List (String × ChatMessage) → List (String × ChatMessage)
  | [] => []
  | oldest :: rest =>
    if maxProcessed < rest.length + 1 ∧ oldest.1 ≠ "" then evict rest else oldest :: rest

/-- `rememberProcessedMessage`. -/
def rememberProcessedMessage (processed : List (String × ChatMessage)) (message : ChatMessage) :
    List (String × ChatMessage) :=
  evict <|
    if processed.any fun p => p.1 = message.id then
      processed.map fun p => if p.1 = message.id then (p.1, message) else p
    else processed ++ [(message.id, message)]

/-- A message that was decrypted before. -/
def fromProcessed (message processed : ChatMessage) : ChatMessage :=
  { message with
    content := processed.content
    status := some (message.status.value.or processed.status.value)
    e2eeDecryptionFailed := some (some false) }

namespace MessageService

variable (s : MessageService)

def resolveEncryptedMessage (message : ChatMessage) : MessageService × Resolution :=
  if message.isEncrypted then
    match s.processed.lookup message.id with
    | some processed => (s, .ready (fromProcessed message processed))
    | none =>
      match s.active.lookup message.id with
      | some n => (s, .promised n)
      | none =>
        ({ s with
            active := (message.id, s.promises.length) :: s.active
            promises := s.promises ++ [(message, none)] }, .promised s.promises.length)
  else (s, .ready message)

def retryEncryptedMessage (message : ChatMessage) : MessageService × Resolution :=
  if message.encryptedContent.value.any (· ≠ "") then
    { s with processed := s.processed.filter fun p => p.1 ≠ message.id }.resolveEncryptedMessage
      message
  else (s, .ready message)

/-- A decryption ends. -/
def settle (J : PartsJson) (accountId : String) (n : ℕ) (outcome : Option Decrypted) :
    Option MessageService :=
  match s.promises[n]? with
  | some (message, none) =>
    let resolved := decryptMessage J accountId message outcome
    some {
      processed :=
        if resolved.e2eeDecryptionFailed.value = some true then s.processed
        else rememberProcessedMessage s.processed resolved
      active := s.active.filter fun p => p.1 ≠ message.id
      promises := s.promises.set n (message, some resolved) }
  | _ => none

/-- `clearEncryptedMessageCache`. -/
def clear : MessageService := { s with processed := [], active := [] }

/-- The message that a resolution has come to, if it has. -/
def await : Resolution → Option ChatMessage
  | .ready message => some message
  | .promised n => (s.promises[n]?).bind Prod.snd

end MessageService

end RedcodeIm.H5
