import RedcodeIm.Runtime.Service

/-!
# Uploads, attachments and the messages that carry them

The rows of `file_upload_records` and `message_attachment_commits`, together with the messages
and their parts, and what the stores ask of them.

* `FileUploadRecord`, `AttachmentCommit` — the rows.
* `AttachmentDb` — the tables; `AttachmentDb.Referenced` what keeps an object.
* `AttachmentWrite`, `AttachmentLock` — one row written, and the locks of the rows.
* `AttachmentView`, `AttachmentOutcome` — what a statement sees and does.
-/

namespace RedcodeIm

/-! ## Rows -/

/-- `file_upload_records.status`, from 0 to 3. -/
inductive UploadStatus where
  | pending
  | completed
  | failed
  | deleted
  deriving DecidableEq

/-- A row of `file_upload_records`. -/
structure FileUploadRecord where
  storageProviderId : Uuid
  objectKey : String
  hashAlg : ℕ
  hashValue : String
  fileSize : Option ℕ
  contentType : Option String
  status : UploadStatus
  uploadedAt : Option Timestamp
  updatedAt : Timestamp
  createdAt : Timestamp
  lastError : Option String
  deriving DecidableEq

/-- The unique index of `file_upload_records`. -/
def FileUploadRecord.key (r : FileUploadRecord) : Uuid × String :=
  (r.storageProviderId, r.objectKey)

/-- A row of `message_attachment_commits`. -/
structure AttachmentCommit where
  roomId : Uuid
  objectKey : String
  uploadedBy : Uuid
  fileSize : Option ℕ
  committedAt : Timestamp
  expiresAt : Timestamp
  confirmedAt : Option Timestamp
  deriving DecidableEq

/-- The primary key of `message_attachment_commits`. -/
def AttachmentCommit.key (c : AttachmentCommit) : Uuid × String := (c.roomId, c.objectKey)

/-- `confirmed_at IS NOT NULL OR expires_at > NOW()`. -/
def AttachmentCommit.live (c : AttachmentCommit) (now : Timestamp) : Bool :=
  c.confirmedAt.isSome || now < c.expiresAt

/-- `INTERVAL '30 days'`, the lease of a commit that nobody has confirmed. -/
def attachmentLease : ℕ := 30 * 24 * 3600 * 1000000

/-- The keys a stored part names: its attachment and its thumbnail. -/
def NewMessagePart.storedKeys (part : NewMessagePart) : List String :=
  part.attachmentKey.toList ++ part.thumbnailKey.toList

/-! ## The tables -/

/-- The tables; `elsewhere` are the keys that avatars, emoji, releases and reports name. -/
structure AttachmentDb where
  uploads : Table FileUploadRecord.key
  commits : Table AttachmentCommit.key
  messages : Table MessageRecord.id
  /-- `message_parts`, in their order, under the message they belong to. -/
  parts : Uuid → List NewMessagePart
  elsewhere : List String

namespace AttachmentDb

/-- The upload records of a key, one for each provider. -/
def uploadsOf (db : AttachmentDb) (objectKey : String) : List FileUploadRecord :=
  db.uploads.rows.filter fun r => r.objectKey = objectKey

/-- The key has an upload record, and all of them are completed. -/
def completed (db : AttachmentDb) (objectKey : String) : Bool :=
  !(db.uploadsOf objectKey).isEmpty &&
    (db.uploadsOf objectKey).all fun r => r.status = .completed

/-- `has_completed_by_key`. -/
def hasCompletedByKey (db : AttachmentDb) (storageProviderId : Uuid) (objectKey : String) : Bool :=
  (db.uploads.get (storageProviderId, objectKey)).any fun r => r.status = .completed

/-- A commit of the key has been confirmed or has not run out. -/
def leased (db : AttachmentDb) (objectKey : String) (now : Timestamp) : Bool :=
  db.commits.rows.any fun c => c.objectKey = objectKey && c.live now

/-- The message is not deleted and one of its parts names the key. -/
def carries (db : AttachmentDb) (m : MessageRecord) (objectKey : String) : Bool :=
  m.deletedAt.isNone && (db.parts m.id).any fun p => objectKey ∈ p.storedKeys

/-- A message that is not deleted names the key. -/
def inMessages (db : AttachmentDb) (objectKey : String) : Bool :=
  db.messages.rows.any fun m => db.carries m objectKey

/-- `room_has_message_object_key`. -/
def roomHasMessageObjectKey (db : AttachmentDb) (roomId : Uuid) (objectKey : String) : Bool :=
  db.messages.rows.any fun m => m.roomId = roomId && db.carries m objectKey

/-- The re-check of `begin_unreferenced_deletion`. -/
def referenced (db : AttachmentDb) (objectKey : String) (now : Timestamp) : Bool :=
  db.leased objectKey now || db.inMessages objectKey

/-- `is_object_key_referenced`. -/
def isObjectKeyReferenced (db : AttachmentDb) (objectKey : String) (now : Timestamp) : Bool :=
  objectKey ∈ db.elsewhere || db.referenced objectKey now

end AttachmentDb

/-- One row written. -/
inductive AttachmentWrite where
  | putUpload (r : FileUploadRecord)
  | putCommit (c : AttachmentCommit)
  | insertMessage (m : MessageRecord)
  | putMessage (m : MessageRecord)
  | insertPart (messageId : Uuid) (part : NewMessagePart)
  deriving DecidableEq

/-- The effect of a write; a message is inserted without parts. -/
def AttachmentDb.apply (db : AttachmentDb) : AttachmentWrite → AttachmentDb
  | .putUpload r => { db with uploads := db.uploads.put r }
  | .putCommit c => { db with commits := db.commits.put c }
  | .insertMessage m =>
    { db with
      messages := db.messages.insert m
      parts := Function.update db.parts m.id [] }
  | .putMessage m => { db with messages := db.messages.put m }
  | .insertPart messageId part =>
    { db with parts := Function.update db.parts messageId (db.parts messageId ++ [part]) }

namespace AttachmentDb

variable {db : AttachmentDb} {x : AttachmentWrite} {id : Uuid} {part : NewMessagePart}

theorem mem_uploads_apply {r : FileUploadRecord} (h : r ∈ (db.apply x).uploads.rows) :
    r ∈ db.uploads.rows ∨ x = .putUpload r := by
  cases x with
  | putUpload r' => exact (Table.mem_put h).imp And.left (congrArg _ ·.symm)
  | _ => exact .inl h

theorem mem_commits_apply {c : AttachmentCommit} (h : c ∈ (db.apply x).commits.rows) :
    c ∈ db.commits.rows ∨ x = .putCommit c := by
  cases x with
  | putCommit c' => exact (Table.mem_put h).imp And.left (congrArg _ ·.symm)
  | _ => exact .inl h

theorem mem_messages_apply {m : MessageRecord} (h : m ∈ (db.apply x).messages.rows) :
    m ∈ db.messages.rows ∨ x = .insertMessage m ∨ x = .putMessage m := by
  cases x with
  | insertMessage row => exact (Table.mem_insert h).imp_right fun heq => .inl (congrArg _ heq.symm)
  | putMessage row => exact (Table.mem_put h).imp And.left fun heq => .inr (congrArg _ heq.symm)
  | _ => exact .inl h

/-- The parts of a message that is not new are the old ones and the one that is inserted. -/
theorem mem_parts_apply (h : part ∈ (db.apply x).parts id) :
    (part ∈ db.parts id ∧ ∀ m, x = .insertMessage m → m.id ≠ id) ∨ x = .insertPart id part := by
  cases x with
  | insertMessage row =>
    have h' : part ∈ Function.update db.parts row.id [] id := h
    by_cases hid : id = row.id
    · rw [hid, Function.update_self] at h'
      cases h'
    · rw [Function.update_of_ne hid] at h'
      refine .inl ⟨h', fun m hm => ?_⟩
      cases hm
      exact Ne.symm hid
  | insertPart id' part' =>
    have h' : part ∈ Function.update db.parts id' (db.parts id' ++ [part']) id := h
    by_cases hid : id = id'
    · subst hid
      rw [Function.update_self] at h'
      rcases List.mem_append.1 h' with h' | h'
      · exact .inl ⟨h', fun m hm => by cases hm⟩
      · exact .inr (List.mem_singleton.1 h' ▸ rfl)
    · rw [Function.update_of_ne hid] at h'
      exact .inl ⟨h', fun m hm => by cases hm⟩
  | _ => exact .inl ⟨h, fun m hm => by cases hm⟩

end AttachmentDb

/-- The rows a transaction can hold. -/
inductive AttachmentLock where
  | upload (storageProviderId : Uuid) (objectKey : String)
  | commit (roomId : Uuid) (objectKey : String)
  | message (id : Uuid)
  deriving DecidableEq

/-- The locks a write takes on the row it touches. -/
def AttachmentWrite.guards : AttachmentWrite → Locks AttachmentLock
  | .putUpload r => [(.upload r.storageProviderId r.objectKey, .noKeyUpdate)]
  | .putCommit c => [(.commit c.roomId c.objectKey, .noKeyUpdate)]
  | .insertMessage m => [(.message m.id, .update)]
  | .putMessage m => [(.message m.id, .noKeyUpdate)]
  | .insertPart .. => []

theorem AttachmentWrite.guards_isWrite (w : AttachmentWrite) :
    ∀ p ∈ w.guards, p.2.isWrite = true := by
  cases w <;> simp [guards, LockMode.isWrite]

/-- The lock of an upload record. -/
def FileUploadRecord.lock (r : FileUploadRecord) : AttachmentLock :=
  .upload r.storageProviderId r.objectKey

/-! ## Facts about the queries -/

namespace AttachmentDb

variable {db : AttachmentDb} {objectKey : String} {now : Timestamp}

theorem mem_uploadsOf {r : FileUploadRecord} :
    r ∈ db.uploadsOf objectKey ↔ r ∈ db.uploads.rows ∧ r.objectKey = objectKey := by
  simp [uploadsOf]

theorem completed_iff : db.completed objectKey = true ↔
    (∃ r ∈ db.uploads.rows, r.objectKey = objectKey) ∧
      ∀ r ∈ db.uploads.rows, r.objectKey = objectKey → r.status = .completed := by
  simp only [completed, Bool.and_eq_true, Bool.not_eq_true', List.isEmpty_eq_false_iff,
    List.all_eq_true, decide_eq_true_eq, mem_uploadsOf]
  constructor
  · rintro ⟨hne, hall⟩
    obtain ⟨r, hr⟩ := List.exists_mem_of_ne_nil _ hne
    exact ⟨⟨r, mem_uploadsOf.1 hr⟩, fun x hx hk => hall x ⟨hx, hk⟩⟩
  · rintro ⟨⟨r, hr, hk⟩, hall⟩
    exact ⟨List.ne_nil_of_mem (mem_uploadsOf.2 ⟨hr, hk⟩), fun x hx => hall x hx.1 hx.2⟩

theorem leased_iff : db.leased objectKey now = true ↔
    ∃ c ∈ db.commits.rows, c.objectKey = objectKey ∧ c.live now = true := by
  simp [leased]

theorem carries_iff {m : MessageRecord} : db.carries m objectKey = true ↔
    m.deletedAt = none ∧ ∃ p ∈ db.parts m.id, objectKey ∈ p.storedKeys := by
  simp [carries]

theorem inMessages_iff : db.inMessages objectKey = true ↔
    ∃ m ∈ db.messages.rows, db.carries m objectKey = true := by
  simp [inMessages]

theorem referenced_iff : db.referenced objectKey now = true ↔
    db.leased objectKey now = true ∨ db.inMessages objectKey = true := by
  simp [referenced]

end AttachmentDb

theorem AttachmentCommit.live_iff {c : AttachmentCommit} {now : Timestamp} :
    c.live now = true ↔ c.confirmedAt ≠ none ∨ now < c.expiresAt := by
  simp [live, Option.isSome_iff_ne_none]

theorem AttachmentCommit.live_of_le {c : AttachmentCommit} {now now' : Timestamp}
    (h : now ≤ now') (hl : c.live now' = true) : c.live now = true := by
  rw [live_iff] at hl ⊢
  exact hl.imp_right (Nat.lt_of_le_of_lt h)

/-! ## Statements -/

/-- What the stores answer. -/
inductive AttachmentAnswer where
  | upload (record : FileUploadRecord)
  | marked (updated : Bool)
  | recorded
  | access (granted : Bool)
  | message (row : MessageRecord)
  | deletedMessages (rowsAffected : ℕ)
  /-- The object is gone; whether it was there to be deleted. -/
  | gone (existed : Bool)
  deriving DecidableEq

/-- Why a transaction was rolled back. -/
inductive AttachmentRefusal where
  | validationError (message : String)
  | databaseError
  /-- `record_room_attachment_commit` returns `false`. -/
  | notRecorded
  /-- `claim_room_attachment_access` returns `false`, its records not being completed. -/
  | noAccess
  /-- `sqlx::Error::RowNotFound`. -/
  | rowNotFound
  /-- The cleanup leaves the object where it is. -/
  | kept
  deriving DecidableEq

/-- What a statement sees. -/
abbrev AttachmentView := ReadCommitted.View AttachmentDb AttachmentLock

/-- What a statement does. -/
abbrev AttachmentOutcome (Stage : Type) :=
  ReadCommitted.Outcome AttachmentWrite AttachmentLock AttachmentRefusal AttachmentAnswer Stage

end RedcodeIm
