import RedcodeIm.Attachments.Tables

/-!
# The stores of uploads and attachments

The functions of `file_upload_store.rs` and `message_store.rs` that touch an upload, a commit of
an attachment or the parts of a message, and the two deletions of `file_upload_cleanup.rs`, one
stage for each statement or call of the storage.

* `createPendingRecord`, `markCompletedByKey`, `markFailedByKey`, `markDeletedByKey`,
  `markMessageDeleted`, `markRoomMessagesDeleted` — single statements.
* `recordRoomAttachmentCommit`, `claimRoomAttachmentAccess` — the lease of an attachment.
* `createMessageWithParts`, `createForwardMessage` — the two that store parts with keys; the
  one part of an encrypted message has none.
* `deleteObject` — `begin_unreferenced_deletion` and `delete_locked_object`, or, from its stage
  `head` on, `delete_unlocked_object`.
-/

namespace RedcodeIm

open ReadCommitted (Outcome)

/-! ## Single statements -/

/-- A statement that is its own transaction. -/
inductive AutocommitStage where
  | run
  | commit (answer : AttachmentAnswer)
  deriving DecidableEq

/-- What `create_pending_record` is told of a file. -/
structure PendingUpload where
  storageProviderId : Uuid
  objectKey : String
  hashAlg : ℕ
  hashValue : String
  fileSize : Option ℕ
  contentType : Option String
  deriving DecidableEq

def PendingUpload.key (u : PendingUpload) : Uuid × String := (u.storageProviderId, u.objectKey)

/-- The row that `create_pending_record` inserts. -/
def PendingUpload.row (u : PendingUpload) (now : Timestamp) : FileUploadRecord where
  storageProviderId := u.storageProviderId
  objectKey := u.objectKey
  hashAlg := u.hashAlg
  hashValue := u.hashValue
  fileSize := u.fileSize
  contentType := u.contentType
  status := .pending
  uploadedAt := none
  updatedAt := now
  createdAt := now
  lastError := none

/-- Its `ON CONFLICT … DO UPDATE`, whatever the status of the row. -/
def PendingUpload.update (u : PendingUpload) (r : FileUploadRecord) (now : Timestamp) :
    FileUploadRecord :=
  { r with
    hashAlg := u.hashAlg
    hashValue := u.hashValue
    fileSize := u.fileSize
    contentType := u.contentType
    status := .pending
    updatedAt := now }

/-- What `create_pending_record` makes of the row it finds. -/
def PendingUpload.upsert (u : PendingUpload) (found : Option FileUploadRecord) (now : Timestamp) :
    FileUploadRecord :=
  match found with
  | some r => u.update r now
  | none => u.row now

def createPendingRecord (u : PendingUpload) (v : AttachmentView) :
    AutocommitStage → AttachmentOutcome AutocommitStage
  | .run =>
    let row := u.upsert (v.db.uploads.get u.key) v.now
    .next (.commit (.upload row)) [] [.putUpload row] 0
  | .commit answer => .commit answer

namespace FileUploadRecord

/-- The row once its upload is completed. -/
def complete (r : FileUploadRecord) (now : Timestamp) : FileUploadRecord :=
  { r with
    status := .completed
    uploadedAt := r.uploadedAt.or (some now)
    updatedAt := now
    lastError := none }

/-- The row once its upload has failed. -/
def fail (r : FileUploadRecord) (lastError : Option String) (now : Timestamp) : FileUploadRecord :=
  { r with status := .failed, updatedAt := now, lastError := lastError }

/-- The row once its object is deleted. -/
def delete (r : FileUploadRecord) (lastError : Option String) (now : Timestamp) :
    FileUploadRecord :=
  { r with status := .deleted, updatedAt := now, lastError := lastError }

variable (r : FileUploadRecord)

end FileUploadRecord

theorem PendingUpload.key_upsert (u : PendingUpload) {found : Option FileUploadRecord}
    (h : ∀ r, found = some r → r.key = u.key) (now : Timestamp) :
    (u.upsert found now).key = u.key := by
  cases found with
  | none => rfl
  | some r => exact h r rfl

/-- An `UPDATE` of one upload record, where the row allows it. -/
def markByKey (storageProviderId : Uuid) (objectKey : String)
    (allowed : FileUploadRecord → Bool) (mark : FileUploadRecord → FileUploadRecord)
    (v : AttachmentView) : AutocommitStage → AttachmentOutcome AutocommitStage
  | .run =>
    match v.db.uploads.get (storageProviderId, objectKey) with
    | some r =>
      if allowed r then .next (.commit (.marked true)) [] [.putUpload (mark r)] 0
      else .commit (.marked false)
    | none => .commit (.marked false)
  | .commit answer => .commit answer

def markCompletedByKey (storageProviderId : Uuid) (objectKey : String) (v : AttachmentView) :
    AutocommitStage → AttachmentOutcome AutocommitStage :=
  markByKey storageProviderId objectKey (·.status ≠ .deleted) (·.complete v.now) v

def markFailedByKey (storageProviderId : Uuid) (objectKey : String) (lastError : Option String)
    (v : AttachmentView) : AutocommitStage → AttachmentOutcome AutocommitStage :=
  markByKey storageProviderId objectKey (·.status ≠ .deleted) (·.fail lastError v.now) v

def markDeletedByKey (storageProviderId : Uuid) (objectKey : String) (lastError : Option String)
    (v : AttachmentView) : AutocommitStage → AttachmentOutcome AutocommitStage :=
  markByKey storageProviderId objectKey (fun _ => true) (·.delete lastError v.now) v

/-- The row of a message once it is deleted. -/
def MessageRecord.delete (m : MessageRecord) (now : Timestamp) : MessageRecord :=
  { m with deletedAt := some now }

def markMessageDeleted (messageId : Uuid) (v : AttachmentView) :
    AutocommitStage → AttachmentOutcome AutocommitStage
  | .run =>
    match (v.db.messages.get messageId).filter (·.deletedAt.isNone) with
    | some m => .next (.commit (.deletedMessages 1)) [] [.putMessage (m.delete v.now)] 0
    | none => .commit (.deletedMessages 0)
  | .commit answer => .commit answer

def markRoomMessagesDeleted (roomId : Uuid) (v : AttachmentView) :
    AutocommitStage → AttachmentOutcome AutocommitStage
  | .run =>
    let rows := v.db.messages.rows.filter fun m => m.roomId = roomId && m.deletedAt.isNone
    .next (.commit (.deletedMessages rows.length)) []
      (rows.map fun m => .putMessage (m.delete v.now)) 0
  | .commit answer => .commit answer

variable {storageProviderId : Uuid} {objectKey : String} {v : AttachmentView}
  {stage stage' : AutocommitStage} {ls : Locks AttachmentLock} {ws : List AttachmentWrite} {n : ℕ}

/-- Everything an `UPDATE` of one upload record can do, short of its end. -/
theorem markByKey_next {allowed : FileUploadRecord → Bool}
    {mark : FileUploadRecord → FileUploadRecord}
    (h : markByKey storageProviderId objectKey allowed mark v stage = .next stage' ls ws n) :
    stage = .run ∧ stage' = .commit (.marked true) ∧
      ∃ r, v.db.uploads.get (storageProviderId, objectKey) = some r ∧ allowed r = true ∧
        ws = [.putUpload (mark r)] := by
  cases stage with
  | run =>
    simp only [markByKey] at h
    split at h
    · rename_i r hr
      split at h
      · rename_i ha
        cases h
        exact ⟨rfl, rfl, r, hr, ha, rfl⟩
      · cases h
    · cases h
  | commit answer => cases h

/-- A deletion of messages writes nothing but messages that are deleted. -/
theorem markMessageDeleted_next {messageId : Uuid}
    (h : markMessageDeleted messageId v stage = .next stage' ls ws n) :
    ∀ x ∈ ws, ∃ m : MessageRecord, x = .putMessage (m.delete v.now) := by
  cases stage with
  | run =>
    simp only [markMessageDeleted] at h
    split at h
    · rename_i m hm
      cases h
      intro x hx
      exact ⟨m, List.mem_singleton.1 hx⟩
    · cases h
  | commit answer => cases h

variable {roomId : Uuid}

theorem markRoomMessagesDeleted_next
    (h : markRoomMessagesDeleted roomId v stage = .next stage' ls ws n) :
    ∀ x ∈ ws, ∃ m : MessageRecord, x = .putMessage (m.delete v.now) := by
  cases stage with
  | run =>
    cases h
    intro x hx
    obtain ⟨m, -, rfl⟩ := List.mem_map.1 hx
    exact ⟨m, rfl⟩
  | commit answer => cases h

/-! ## The lease of an attachment -/

/-- The statements of `record_room_attachment_commit`. -/
inductive RecordStage where
  | completeUpload
  | insertCommit
  | commit
  deriving DecidableEq

/-- The row that a commit inserts. -/
def newCommit (roomId : Uuid) (objectKey : String) (uploadedBy : Uuid) (fileSize : Option ℕ)
    (now : Timestamp) : AttachmentCommit where
  roomId := roomId
  objectKey := objectKey
  uploadedBy := uploadedBy
  fileSize := fileSize
  committedAt := now
  expiresAt := now + attachmentLease
  confirmedAt := none

/-- The row after its uploader has committed it again. -/
def AttachmentCommit.renew (c : AttachmentCommit) (fileSize : Option ℕ) (now : Timestamp) :
    AttachmentCommit :=
  { c with fileSize := fileSize, committedAt := now, expiresAt := now + attachmentLease }

/-- The row after somebody has been given access. -/
def AttachmentCommit.access (c : AttachmentCommit) (accessedBy : Uuid) (now : Timestamp) :
    AttachmentCommit :=
  { c with
    confirmedAt := if c.uploadedBy ≠ accessedBy then c.confirmedAt.or (some now)
      else c.confirmedAt }

@[simp] theorem AttachmentCommit.key_access (c : AttachmentCommit) (accessedBy : Uuid)
    (now : Timestamp) : (c.access accessedBy now).key = c.key := rfl

def recordRoomAttachmentCommit (storageProviderId roomId : Uuid) (objectKey : String)
    (uploadedBy : Uuid) (fileSize : Option ℕ) (v : AttachmentView) :
    RecordStage → AttachmentOutcome RecordStage
  | .completeUpload =>
    match v.db.uploads.get (storageProviderId, objectKey) with
    | some r =>
      if r.status ≠ .deleted then .next .insertCommit [] [.putUpload (r.complete v.now)] 0
      else .fail .notRecorded
    | none => .fail .notRecorded
  | .insertCommit =>
    match v.db.commits.get (roomId, objectKey) with
    | some c =>
      if c.uploadedBy = uploadedBy then .next .commit [] [.putCommit (c.renew fileSize v.now)] 0
      else .fail .notRecorded
    | none => .next .commit [] [.putCommit (newCommit roomId objectKey uploadedBy fileSize v.now)] 0
  | .commit => .commit .recorded

/-- Everything a statement of a commit that does not end it can do. -/
inductive RecordNext (storageProviderId roomId : Uuid) (objectKey : String) (uploadedBy : Uuid)
    (fileSize : Option ℕ) (v : AttachmentView) :
    RecordStage → RecordStage → List AttachmentWrite → Prop where
  | completeUpload (r : FileUploadRecord)
      (hr : v.db.uploads.get (storageProviderId, objectKey) = some r) (hs : r.status ≠ .deleted) :
      RecordNext storageProviderId roomId objectKey uploadedBy fileSize v .completeUpload
        .insertCommit [.putUpload (r.complete v.now)]
  | renew (c : AttachmentCommit) (hc : v.db.commits.get (roomId, objectKey) = some c)
      (hu : c.uploadedBy = uploadedBy) :
      RecordNext storageProviderId roomId objectKey uploadedBy fileSize v .insertCommit .commit
        [.putCommit (c.renew fileSize v.now)]
  | insert (hc : v.db.commits.get (roomId, objectKey) = none) :
      RecordNext storageProviderId roomId objectKey uploadedBy fileSize v .insertCommit .commit
        [.putCommit (newCommit roomId objectKey uploadedBy fileSize v.now)]

theorem record_next {uploadedBy : Uuid} {fileSize : Option ℕ} {stage stage' : RecordStage}
    (h : recordRoomAttachmentCommit storageProviderId roomId objectKey uploadedBy fileSize v stage
      = .next stage' ls ws n) :
    RecordNext storageProviderId roomId objectKey uploadedBy fileSize v stage stage' ws := by
  cases stage with
  | completeUpload =>
    simp only [recordRoomAttachmentCommit] at h
    split at h
    · rename_i r hr
      split at h
      · rename_i hs
        cases h
        exact .completeUpload r hr hs
      · cases h
    · cases h
  | insertCommit =>
    simp only [recordRoomAttachmentCommit] at h
    split at h
    · rename_i c hc
      split at h
      · rename_i hu
        cases h
        exact .renew c hc hu
      · cases h
    · rename_i hc
      cases h
      exact .insert hc
  | commit => cases h

theorem record_commit {uploadedBy : Uuid} {fileSize : Option ℕ} {stage : RecordStage}
    {out : AttachmentAnswer}
    (h : recordRoomAttachmentCommit storageProviderId roomId objectKey uploadedBy fileSize v stage
      = .commit out) : stage = .commit ∧ out = .recorded := by
  cases stage with
  | commit =>
    cases h
    exact ⟨rfl, rfl⟩
  | completeUpload | insertCommit =>
    simp only [recordRoomAttachmentCommit] at h
    repeat' split at h
    all_goals cases h

/-- The statements of `claim_room_attachment_access`. -/
inductive AccessStage where
  | selectUploads
  | confirm
  | commit (granted : Bool)
  deriving DecidableEq

def claimRoomAttachmentAccess (roomId : Uuid) (objectKey : String) (accessedBy : Uuid)
    (v : AttachmentView) : AccessStage → AttachmentOutcome AccessStage
  | .selectUploads =>
    let uploads := v.db.uploadsOf objectKey
    if uploads.any fun r => v.locked r.lock .update then .wait
    else if v.db.completed objectKey then
      .next .confirm (uploads.map fun r => (r.lock, .update)) [] 0
    else .fail .noAccess
  | .confirm =>
    match (v.db.commits.get (roomId, objectKey)).filter (·.live v.now) with
    | some c => .next (.commit true) [] [.putCommit (c.access accessedBy v.now)] 0
    | none => .next (.commit false) [] [] 0
  | .commit granted => .commit (.access granted)

/-- Everything a statement of a claim that does not end it can do. -/
inductive AccessNext (roomId : Uuid) (objectKey : String) (accessedBy : Uuid)
    (v : AttachmentView) :
    AccessStage → AccessStage → Locks AttachmentLock → List AttachmentWrite → Prop where
  | select (hc : v.db.completed objectKey = true) :
      AccessNext roomId objectKey accessedBy v .selectUploads .confirm
        ((v.db.uploadsOf objectKey).map fun r => (r.lock, .update)) []
  | confirm (c : AttachmentCommit) (hc : v.db.commits.get (roomId, objectKey) = some c)
      (hl : c.live v.now = true) :
      AccessNext roomId objectKey accessedBy v .confirm (.commit true) []
        [.putCommit (c.access accessedBy v.now)]
  | refuse (hc : (v.db.commits.get (roomId, objectKey)).filter (·.live v.now) = none) :
      AccessNext roomId objectKey accessedBy v .confirm (.commit false) [] []

variable {accessedBy : Uuid}

theorem access_next {stage stage' : AccessStage}
    (h : claimRoomAttachmentAccess roomId objectKey accessedBy v stage = .next stage' ls ws n) :
    AccessNext roomId objectKey accessedBy v stage stage' ls ws := by
  cases stage with
  | selectUploads =>
    simp only [claimRoomAttachmentAccess] at h
    split at h
    · cases h
    · split at h
      · rename_i hc
        cases h
        exact .select hc
      · cases h
  | confirm =>
    simp only [claimRoomAttachmentAccess] at h
    split at h
    · rename_i c hc
      cases h
      obtain ⟨hget, hl⟩ := Option.filter_eq_some_iff.1 hc
      exact .confirm c hget hl
    · rename_i hc
      cases h
      exact .refuse hc
  | commit granted => cases h

theorem access_commit {stage : AccessStage} {out : AttachmentAnswer}
    (h : claimRoomAttachmentAccess roomId objectKey accessedBy v stage = .commit out) :
    ∃ granted, stage = .commit granted ∧ out = .access granted := by
  cases stage with
  | commit granted =>
    cases h
    exact ⟨granted, rfl, rfl⟩
  | selectUploads | confirm =>
    simp only [claimRoomAttachmentAccess] at h
    repeat' split at h
    all_goals cases h

theorem access_fail {stage : AccessStage} {err : AttachmentRefusal}
    (h : claimRoomAttachmentAccess roomId objectKey accessedBy v stage = .fail err) :
    stage = .selectUploads ∧ v.db.completed objectKey = false := by
  cases stage with
  | selectUploads =>
    simp only [claimRoomAttachmentAccess] at h
    split at h
    · cases h
    · split at h
      · cases h
      · rename_i hc
        exact ⟨rfl, Bool.not_eq_true _ ▸ hc⟩
  | confirm =>
    simp only [claimRoomAttachmentAccess] at h
    split at h <;> cases h
  | commit granted => cases h

/-! ## Messages with parts -/

/-- The statements of a transaction that stores a message with its parts. -/
inductive InsertStage where
  | readParts
  | insertMessage (parts : List NewMessagePart)
  | checkKeys (keys : List String) (part : NewMessagePart) (rest : List NewMessagePart)
      (row : MessageRecord)
  | commit (row : MessageRecord)
  deriving DecidableEq

/-- The next part to be stored, if there is one. -/
def InsertStage.part (row : MessageRecord) : List NewMessagePart → InsertStage
  | [] => .commit row
  | part :: rest => .checkKeys part.storedKeys part rest row

/-- A message and its parts; `insert_message_parts` admits a part once each of its keys has
been found completed. -/
def insertMessageWithParts (row : MessageRecord) (readParts : AttachmentDb → List NewMessagePart)
    (v : AttachmentView) : InsertStage → AttachmentOutcome InsertStage
  | .readParts => .next (.insertMessage (readParts v.db)) [] [] 0
  | .insertMessage parts =>
    match v.db.messages.get row.id with
    | some _ => .fail .databaseError
    | none => .next (.part row parts) [] [.insertMessage row] 0
  | .checkKeys (objectKey :: keys) part rest row =>
    let uploads := v.db.uploadsOf objectKey
    if uploads.any fun r => v.locked r.lock .share then .wait
    else if v.db.completed objectKey then
      .next (.checkKeys keys part rest row) (uploads.map fun r => (r.lock, .share)) [] 0
    else .fail .rowNotFound
  | .checkKeys [] part rest row => .next (.part row rest) [] [.insertPart row.id part] 0
  | .commit row => .commit (.message row)

def createMessageWithParts (input : NewMessage) (v : AttachmentView) :
    InsertStage → AttachmentOutcome InsertStage :=
  insertMessageWithParts (input.row v.now) (fun _ => input.parts) v

/-- The row of a message that is forwarded. -/
def MessageWithSender.forwardRow (original : MessageWithSender)
    (messageId targetRoomId senderId : Uuid) (now : Timestamp) : MessageRecord :=
  { (original.forwarded [] messageId targetRoomId senderId).row now with
    forwardFrom := original.origin }

/-- Its parts: those of the original. -/
def MessageWithSender.forwardParts (original : MessageWithSender)
    (messageId targetRoomId senderId : Uuid) (db : AttachmentDb) : List NewMessagePart :=
  (original.forwarded (db.parts original.message.id) messageId targetRoomId senderId).parts

/-- `create_forward_message`, after `get_message_parts_map` has read the parts of the original. -/
def createForwardMessage (messageId targetRoomId senderId : Uuid) (original : MessageWithSender)
    (v : AttachmentView) : InsertStage → AttachmentOutcome InsertStage :=
  insertMessageWithParts (original.forwardRow messageId targetRoomId senderId v.now)
    (original.forwardParts messageId targetRoomId senderId) v

/-- Everything a statement of such a transaction that does not end it can do. -/
inductive InsertNext (row : MessageRecord) (readParts : AttachmentDb → List NewMessagePart)
    (v : AttachmentView) :
    InsertStage → InsertStage → Locks AttachmentLock → List AttachmentWrite → Prop where
  | readParts : InsertNext row readParts v .readParts (.insertMessage (readParts v.db)) [] []
  | insertMessage (parts : List NewMessagePart) (hm : v.db.messages.get row.id = none) :
      InsertNext row readParts v (.insertMessage parts) (.part row parts) [] [.insertMessage row]
  | checkKey (objectKey : String) (keys : List String) (part : NewMessagePart)
      (rest : List NewMessagePart) (row' : MessageRecord) (hc : v.db.completed objectKey = true) :
      InsertNext row readParts v (.checkKeys (objectKey :: keys) part rest row')
        (.checkKeys keys part rest row')
        ((v.db.uploadsOf objectKey).map fun r => (r.lock, .share)) []
  | insertPart (part : NewMessagePart) (rest : List NewMessagePart) (row' : MessageRecord) :
      InsertNext row readParts v (.checkKeys [] part rest row') (.part row' rest) []
        [.insertPart row'.id part]

variable {stage stage' : InsertStage}

theorem insert_next {row : MessageRecord} {readParts : AttachmentDb → List NewMessagePart}
    (h : insertMessageWithParts row readParts v stage = .next stage' ls ws n) :
    InsertNext row readParts v stage stage' ls ws := by
  cases stage with
  | readParts =>
    cases h
    exact .readParts
  | insertMessage parts =>
    simp only [insertMessageWithParts] at h
    split at h
    · cases h
    · rename_i hm
      cases h
      exact .insertMessage parts hm
  | checkKeys keys part rest row' =>
    cases keys with
    | nil =>
      cases h
      exact .insertPart part rest row'
    | cons objectKey keys =>
      simp only [insertMessageWithParts] at h
      split at h
      · cases h
      · split at h
        · rename_i hc
          cases h
          exact .checkKey objectKey keys part rest row' hc
        · cases h
  | commit row' => cases h

theorem create_next {input : NewMessage}
    (h : createMessageWithParts input v stage = .next stage' ls ws n) :
    InsertNext (input.row v.now) (fun _ => input.parts) v stage stage' ls ws :=
  insert_next h

theorem forward_next {messageId targetRoomId senderId : Uuid} {original : MessageWithSender}
    (h : createForwardMessage messageId targetRoomId senderId original v stage
      = .next stage' ls ws n) :
    InsertNext (original.forwardRow messageId targetRoomId senderId v.now)
      (original.forwardParts messageId targetRoomId senderId) v stage stage' ls ws :=
  insert_next h

/-! ## Deleting an object -/

/-- What `head_object` returns. -/
inductive HeadAnswer where
  | found
  | notFound
  /-- The provider does not have it: `ValidationError`. -/
  | unsupported
  | error
  deriving DecidableEq

/-- What the storage answers about an object. -/
structure StorageAnswers where
  headObject : HeadAnswer
  /-- `file_exists`, where it answers. -/
  fileExists : Option Bool
  /-- `delete_file` succeeds. -/
  deleteFile : Bool
  deriving DecidableEq

/-- Whether the object is there, where the storage says so. -/
def StorageAnswers.objectExists (a : StorageAnswers) : Option Bool :=
  match a.headObject with
  | .found => some true
  | .notFound => some false
  | .unsupported => a.fileExists
  | .error => none

/-- The statements of a deletion and its calls of the storage. -/
inductive DeletionStage where
  | candidate
  | recheck
  | head
  | deleteFile
  | mark (existed : Bool)
  | commit (existed : Bool)
  deriving DecidableEq

/-- `key.starts_with("messages/")`. -/
def isMessageKey (objectKey : String) : Bool := "messages/".toList <+: objectKey.toList

/-- The text that a deletion leaves in `last_error`. -/
def deletionReason (deletedReason : String) (existed : Bool) : String :=
  if existed then deletedReason else "对象不存在，已标记为删除"

def deleteObject (storageProviderId : Uuid) (objectKey deletedReason : String)
    (storage : StorageAnswers) (v : AttachmentView) :
    DeletionStage → AttachmentOutcome DeletionStage
  | .candidate =>
    match v.db.uploads.get (storageProviderId, objectKey) with
    | some r =>
      if !isMessageKey objectKey || r.status = .deleted then .fail .kept
      else .next .recheck [(.upload storageProviderId objectKey, .update)] [] 0
    | none => .fail .kept
  | .recheck => if v.db.referenced objectKey v.now then .fail .kept else .next .head [] [] 0
  | .head =>
    match storage.objectExists with
    | some true => .next .deleteFile [] [] 0
    | some false => .next (.mark false) [] [] 0
    | none => .fail .kept
  | .deleteFile => if storage.deleteFile then .next (.mark true) [] [] 0 else .fail .kept
  | .mark existed =>
    match v.db.uploads.get (storageProviderId, objectKey) with
    | some r =>
      .next (.commit existed) []
        [.putUpload (r.delete (some (deletionReason deletedReason existed)) v.now)] 0
    | none => .next (.commit existed) [] [] 0
  | .commit existed => .commit (.gone existed)

/-- Everything a statement of a deletion that does not end it can do. -/
inductive DeleteNext (storageProviderId : Uuid) (objectKey deletedReason : String)
    (storage : StorageAnswers) (v : AttachmentView) :
    DeletionStage → DeletionStage → Locks AttachmentLock → List AttachmentWrite → Prop where
  | candidate (r : FileUploadRecord)
      (hr : v.db.uploads.get (storageProviderId, objectKey) = some r)
      (hk : isMessageKey objectKey = true) (hs : r.status ≠ .deleted) :
      DeleteNext storageProviderId objectKey deletedReason storage v .candidate .recheck
        [(.upload storageProviderId objectKey, .update)] []
  | recheck (hu : v.db.referenced objectKey v.now = false) :
      DeleteNext storageProviderId objectKey deletedReason storage v .recheck .head [] []
  | found (he : storage.objectExists = some true) :
      DeleteNext storageProviderId objectKey deletedReason storage v .head .deleteFile [] []
  | missing (he : storage.objectExists = some false) :
      DeleteNext storageProviderId objectKey deletedReason storage v .head (.mark false) [] []
  | deleteFile (hd : storage.deleteFile = true) :
      DeleteNext storageProviderId objectKey deletedReason storage v .deleteFile (.mark true) [] []
  | mark (existed : Bool) (r : FileUploadRecord)
      (hr : v.db.uploads.get (storageProviderId, objectKey) = some r) :
      DeleteNext storageProviderId objectKey deletedReason storage v (.mark existed)
        (.commit existed) []
        [.putUpload (r.delete (some (deletionReason deletedReason existed)) v.now)]
  | unrecorded (existed : Bool)
      (hr : v.db.uploads.get (storageProviderId, objectKey) = none) :
      DeleteNext storageProviderId objectKey deletedReason storage v (.mark existed)
        (.commit existed) [] []

theorem delete_next {deletedReason : String} {storage : StorageAnswers}
    {stage stage' : DeletionStage}
    (h : deleteObject storageProviderId objectKey deletedReason storage v stage
      = .next stage' ls ws n) :
    DeleteNext storageProviderId objectKey deletedReason storage v stage stage' ls ws := by
  cases stage with
  | candidate =>
    simp only [deleteObject] at h
    split at h
    · rename_i r hr
      split at h
      · cases h
      · rename_i hc
        simp only [Bool.or_eq_true, Bool.not_eq_true', decide_eq_true_eq, not_or,
          Bool.not_eq_false] at hc
        cases h
        exact .candidate r hr hc.1 hc.2
    · cases h
  | recheck =>
    simp only [deleteObject] at h
    split at h
    · cases h
    · rename_i hu
      cases h
      exact .recheck (Bool.not_eq_true _ ▸ hu)
  | head =>
    simp only [deleteObject] at h
    split at h
    · rename_i he
      cases h
      exact .found he
    · rename_i he
      cases h
      exact .missing he
    · cases h
  | deleteFile =>
    simp only [deleteObject] at h
    split at h
    · rename_i hd
      cases h
      exact .deleteFile hd
    · cases h
  | mark existed =>
    simp only [deleteObject] at h
    split at h
    · rename_i r hr
      cases h
      exact .mark existed r hr
    · rename_i hr
      cases h
      exact .unrecorded existed hr
  | commit existed => cases h

end RedcodeIm
