import RedcodeIm.Lib.Table
import RedcodeIm.Lib.ReadCommitted

/-!
# Rows of the E2EE tables

The rows, statuses, errors and writes of the end-to-end encryption tables, under
the names of the migrations and of the `FromRow` records.

* `Db` — the tables, each keyed by its primary key.
* `Write` — one row written; `Write.guards` the row and unique-index locks it takes.
* `Db.apply` — the effect of a write.
* `AppError` — the errors the stores return, with their texts.
* `DbView`, `StatementOutcome` — what a statement of a store function sees and does.
-/

namespace RedcodeIm

/-- UUIDs are compared for equality and ordered, nothing else; `0` is the nil UUID. -/
abbrev Uuid := ℕ

/-- A `TIMESTAMPTZ` or `DateTime<Utc>`. -/
abbrev Timestamp := ℕ

/-- A `BYTEA` column or `Vec<u8>`. -/
abbrev Bytes := List UInt8

/-! ## Statuses -/

/-- `e2ee_devices.status`. -/
inductive DeviceStatus where
  | pendingApproval
  | active
  | revoked
  deriving DecidableEq

/-- `e2ee_room_epochs.status`. -/
inductive EpochStatus where
  | preparing
  | active
  | rekeyRequired
  deriving DecidableEq

/-- The `content_type` of a control message: the two the table admits, or any other
text a caller passes. -/
inductive ControlContentType where
  | commit
  | welcome
  | other (text : String)
  deriving DecidableEq

/-! ## Rows -/

/-- `room_members`. -/
structure RoomMember where
  id : Uuid
  roomId : Uuid
  userId : Uuid
  deletedAt : Option Timestamp
  deriving DecidableEq

/-- `e2ee_account_identities`. -/
structure AccountIdentity where
  userId : Uuid
  rootPublicKey : Bytes
  rootFingerprint : Bytes
  protocolVersion : ℕ
  createdAt : Timestamp
  updatedAt : Timestamp
  deriving DecidableEq

/-- `e2ee_devices`. -/
structure Device where
  id : Uuid
  userId : Uuid
  deviceLabel : String
  credential : Bytes
  credentialFingerprint : Bytes
  approvalPublicKey : Option Bytes
  protocolVersion : ℕ
  status : DeviceStatus
  approvedByDeviceId : Option Uuid
  approvedAt : Option Timestamp
  revokedAt : Option Timestamp
  createdAt : Timestamp
  updatedAt : Timestamp
  clientPlatform : Option String
  clientVersion : Option String
  clientBuild : Option String
  deriving DecidableEq

/-- `e2ee_room_epochs`, as `RoomEpochRecord`. -/
structure RoomEpoch where
  roomId : Uuid
  membershipRevision : ℕ
  activeEpoch : ℕ
  status : EpochStatus
  updatedAt : Timestamp
  deriving DecidableEq

/-- `e2ee_control_messages`, as `ControlMessageRecord`. -/
structure ControlMessage where
  id : Uuid
  roomId : Uuid
  epoch : ℕ
  membershipRevision : ℕ
  senderDeviceId : Uuid
  recipientDeviceId : Option Uuid
  contentType : ControlContentType
  envelope : Bytes
  idempotencyKey : Uuid
  sequenceNo : ℕ
  createdAt : Timestamp
  deriving DecidableEq

/-- `e2ee_control_receipts`. -/
structure ControlReceipt where
  controlMessageId : Uuid
  recipientDeviceId : Uuid
  deliveredAt : Option Timestamp
  consumedAt : Option Timestamp
  deriving DecidableEq

/-- The primary key of `e2ee_control_receipts`. -/
def ControlReceipt.key (r : ControlReceipt) : Uuid × Uuid :=
  (r.controlMessageId, r.recipientDeviceId)

/-- The content types of an encrypted envelope. -/
inductive EncryptedContentType where
  | application
  | commit
  | welcome
  deriving DecidableEq

/-- The JSON stored in `messages.encryption_metadata`. -/
structure EncryptionMetadata where
  version : ℕ
  epoch : ℕ
  senderDeviceId : Uuid
  contentType : EncryptedContentType
  controlMessageId : Option Uuid
  deriving DecidableEq

/-- A row of `messages` with an encrypted payload. -/
structure Message where
  id : Uuid
  roomId : Uuid
  senderId : Uuid
  content : String
  encryptedContent : Option Bytes
  encryptionMetadata : Option EncryptionMetadata
  quotedMessageId : Option Uuid
  encryptedIdempotencyKey : Uuid
  createdAt : Timestamp
  deriving DecidableEq

/-- `e2ee_key_packages`. -/
structure KeyPackage where
  id : Uuid
  deviceId : Uuid
  packageRef : Bytes
  keyPackage : Bytes
  protocolVersion : ℕ
  expiresAt : Timestamp
  consumedAt : Option Timestamp
  consumedByDeviceId : Option Uuid
  createdAt : Timestamp
  deriving DecidableEq

/-! ## Errors -/

/-- The errors of the E2EE stores. -/
inductive AppError where
  | databaseError
  | notFound (message : String)
  | alreadyExists (message : String)
  | messageRuntimeConflict (message : String)
  | validationError (message : String)
  | forbidden (message : String)
  | rateLimitExceeded (message : String)
  | cacheError (message : String)
  | internalError (message : String)
  | serviceUnavailable (message : String)
  deriving DecidableEq

/-! ## The database -/

/-- The tables. -/
structure Db where
  rooms : List Uuid
  members : Table RoomMember.id
  identities : Table AccountIdentity.userId
  devices : Table Device.id
  epochs : Table RoomEpoch.roomId
  controls : Table ControlMessage.id
  receipts : Table ControlReceipt.key
  messages : Table Message.id
  keyPackages : Table KeyPackage.id

/-- One row written. -/
inductive Write where
  | insertRoom (id : Uuid)
  | putMember (m : RoomMember)
  | deleteMember (m : RoomMember)
  | insertIdentity (i : AccountIdentity)
  | insertDevice (d : Device)
  | putDevice (d : Device)
  | putEpoch (e : RoomEpoch)
  | insertControl (m : ControlMessage)
  | putReceipt (r : ControlReceipt)
  | insertMessage (m : Message)
  | insertKeyPackage (p : KeyPackage)
  | putKeyPackage (p : KeyPackage)
  deriving DecidableEq

/-- The effect of a write. -/
def Db.apply (db : Db) : Write → Db
  | .insertRoom id => { db with rooms := db.rooms ++ [id] }
  | .putMember m => { db with members := db.members.put m }
  | .deleteMember m => { db with members := db.members.delete m.id }
  | .insertIdentity i => { db with identities := db.identities.insert i }
  | .insertDevice d => { db with devices := db.devices.insert d }
  | .putDevice d => { db with devices := db.devices.put d }
  | .putEpoch e => { db with epochs := db.epochs.put e }
  | .insertControl m => { db with controls := db.controls.insert m }
  | .putReceipt r => { db with receipts := db.receipts.put r }
  | .insertMessage m => { db with messages := db.messages.insert m }
  | .insertKeyPackage p => { db with keyPackages := db.keyPackages.insert p }
  | .putKeyPackage p => { db with keyPackages := db.keyPackages.put p }

/-- The rows, unique-index entries and advisory locks a transaction can hold.  An
advisory lock is named by the text that is hashed for it. -/
inductive LockKey where
  | account (userId : Uuid)
  | encryptedMessage (roomId senderId idempotencyKey : Uuid)
  | room (id : Uuid)
  | member (id : Uuid)
  | memberActive (roomId userId : Uuid)
  | identity (userId : Uuid)
  | device (id : Uuid)
  | deviceFingerprint (userId : Uuid) (fingerprint : Bytes)
  | roomEpoch (roomId : Uuid)
  | control (id : Uuid)
  | controlKey (roomId idempotencyKey : Uuid)
  | receipt (controlMessageId recipientDeviceId : Uuid)
  | message (id : Uuid)
  | messageKey (roomId senderId idempotencyKey : Uuid)
  | keyPackage (id : Uuid)
  | packageRef (ref : Bytes)
  deriving DecidableEq

/-- The locks a write takes: the row, and the unique-index entries an insert makes. -/
def Write.guards : Write → Locks LockKey
  | .insertRoom id => [(.room id, .update)]
  | .putMember m => [(.member m.id, .noKeyUpdate), (.memberActive m.roomId m.userId, .update)]
  | .deleteMember m => [(.member m.id, .update), (.memberActive m.roomId m.userId, .update)]
  | .insertIdentity i => [(.identity i.userId, .update)]
  | .insertDevice d =>
    [(.device d.id, .update), (.deviceFingerprint d.userId d.credentialFingerprint, .update)]
  | .putDevice d => [(.device d.id, .noKeyUpdate)]
  | .putEpoch e => [(.roomEpoch e.roomId, .noKeyUpdate)]
  | .insertControl m => [(.control m.id, .update), (.controlKey m.roomId m.idempotencyKey, .update)]
  | .putReceipt r => [(.receipt r.controlMessageId r.recipientDeviceId, .noKeyUpdate)]
  | .insertMessage m =>
    [(.message m.id, .update), (.messageKey m.roomId m.senderId m.encryptedIdempotencyKey, .update)]
  | .insertKeyPackage p => [(.keyPackage p.id, .update), (.packageRef p.packageRef, .update)]
  | .putKeyPackage p => [(.keyPackage p.id, .noKeyUpdate)]

theorem Write.guards_isWrite (w : Write) : ∀ p ∈ w.guards, p.2.isWrite = true := by
  cases w <;> simp [guards, LockMode.isWrite]

/-! ## What the queries ask -/

namespace Db

/-- A row of `room_members` makes the user a current member of the room. -/
def isMember (db : Db) (roomId userId : Uuid) : Bool :=
  db.members.rows.any fun m => m.roomId = roomId && m.userId = userId && m.deletedAt = none

/-- The device belongs to the user and is active. -/
def deviceActive (db : Db) (deviceId userId : Uuid) : Bool :=
  match db.devices.get deviceId with
  | some d => d.userId = userId && d.status = .active
  | none => false

/-- The device is an active device of some current member of the room. -/
def deviceInRoom (db : Db) (deviceId roomId : Uuid) : Bool :=
  match db.devices.get deviceId with
  | some d => d.status = .active && db.isMember roomId d.userId
  | none => false

/-- The rooms' control messages in the order of their insertion. -/
def controlLog (db : Db) (roomId : Uuid) : List ControlMessage :=
  db.controls.rows.filter fun m => m.roomId = roomId

theorem mem_controlLog {db : Db} {roomId : Uuid} {m : ControlMessage} :
    m ∈ db.controlLog roomId ↔ m ∈ db.controls.rows ∧ m.roomId = roomId := by
  simp [controlLog]

end Db

/-! ## Statements -/

/-- A row of `list_room_member_devices`. -/
structure RoomMemberDevice where
  userId : Uuid
  deviceId : Option Uuid
  protocolVersion : Option ℕ
  credentialFingerprint : Option Bytes
  deriving DecidableEq

/-- What the store functions return. -/
inductive Response where
  | control (message : ControlMessage)
  | controls (messages : List ControlMessage)
  | consumed
  | roomEpoch (epoch : RoomEpoch)
  | memberDevices (devices : List RoomMemberDevice)
  | membership
  | device (device : Device)
  | message (message : Message) (created : Bool)
  | published (inserted : ℕ)
  | claimed (package : Option KeyPackage)
  deriving DecidableEq

/-- What a statement of a store function sees. -/
abbrev DbView := ReadCommitted.View Db LockKey

/-- What a statement does. -/
abbrev StatementOutcome (Stage : Type) :=
  ReadCommitted.Outcome Write LockKey AppError Response Stage

end RedcodeIm
