import RedcodeIm.Lib.Awaiting
import RedcodeIm.Database.ControlStore

/-!
# The effects of the clients

What the end-to-end encryption code of the clients awaits: its local storage, the MLS core,
the HTTP API and fresh identifiers.  The account state of the core is one opaque value of a
type `σ`; what the core and the API answer is for a `Host` to say, the storage is modelled.

* `DeviceProfile`, `PendingOperation`, `DirectMessageMetadata` — the local records.
* `Effect`, `Act` — the effects, and the programs over them.
* `DeviceStore.perform` — the local storage.
* `Host.env` — the storage together with a host.
-/

namespace RedcodeIm

open Awaiting

/-! ## Records -/

/-- The identity of a leaf, `userId/deviceId`. -/
structure Leaf where
  userId : Uuid
  deviceId : Uuid
  deriving DecidableEq

/-- `E2eeDeviceProfile`.  A missing `deviceStatus` is stored, and read, as active. -/
structure DeviceProfile where
  deviceId : Uuid
  deviceLabel : String
  registered : Bool
  keyPackagePublished : Bool
  deviceStatus : DeviceStatus
  lastControlSequences : Uuid → Option ℕ
  lastCommitMessageIds : Uuid → Option Uuid

namespace DeviceProfile

/-- The device has joined the group of the room. -/
def joined (p : DeviceProfile) (roomId : Uuid) : Bool := (p.lastCommitMessageIds roomId).isSome

/-- `lastControlSequences[roomId] ?? 0`. -/
def cursor (p : DeviceProfile) (roomId : Uuid) : ℕ := (p.lastControlSequences roomId).getD 0

/-- The profile with another commit index for the room. -/
def withCommit (p : DeviceProfile) (roomId : Uuid) (id : Uuid) : DeviceProfile :=
  { p with lastCommitMessageIds := Function.update p.lastCommitMessageIds roomId (some id) }

/-- The profile with another cursor for the room. -/
def withCursor (p : DeviceProfile) (roomId : Uuid) (sequenceNo : ℕ) : DeviceProfile :=
  { p with
    lastControlSequences := Function.update p.lastControlSequences roomId (some sequenceNo) }

variable (p : DeviceProfile) (roomId room id : Uuid) (n : ℕ)

@[simp] theorem cursor_withCommit : (p.withCommit roomId id).cursor room = p.cursor room := rfl

@[simp] theorem joined_withCursor : (p.withCursor roomId n).joined room = p.joined room := rfl

@[simp] theorem joined_withCommit : (p.withCommit roomId id).joined roomId = true := by
  simp [joined, withCommit]

@[simp] theorem cursor_withCursor : (p.withCursor roomId n).cursor roomId = n := by
  simp [cursor, withCursor]

theorem joined_withCommit_of_joined (h : p.joined room = true) :
    (p.withCommit roomId id).joined room = true := by
  by_cases hr : room = roomId
  · subst hr
    exact joined_withCommit p room id
  · exact (congrArg Option.isSome (Function.update_of_ne hr _ _)).trans h

theorem cursor_withCursor_of_ne (h : room ≠ roomId) :
    (p.withCursor roomId n).cursor room = p.cursor room :=
  congrArg (fun o : Option ℕ => o.getD 0) (Function.update_of_ne h _ _)

end DeviceProfile

/-- `E2eeAttachmentPart`. -/
structure AttachmentPart where
  partKey : String
  objectKey : String
  name : String
  mimeType : String
  size : ℤ
  partPosition : ℤ
  nonce : Bytes
  dek : Bytes
  deriving DecidableEq

/-- The payload of an application message. -/
inductive ApplicationPayload where
  | text (text : String)
  | attachment (text : Option String) (parts : List AttachmentPart)
  deriving DecidableEq

/-- `E2eePendingOperationKind`. -/
inductive PendingOperationKind where
  | bootstrap
  | application
  | inbound
  | rekey
  deriving DecidableEq

/-- `E2eePendingControl`. -/
structure PendingControl where
  id : Uuid
  epoch : ℕ
  membershipRevision : ℕ
  contentType : ControlContentType
  envelope : Bytes
  recipientDeviceId : Option Uuid
  sequenceNo : Option ℕ
  deriving DecidableEq

/-- `E2eePendingOperation`. -/
structure PendingOperation (σ : Type) where
  kind : PendingOperationKind
  roomId : Uuid
  nextState : σ
  senderDeviceId : Uuid
  idempotencyKey : Uuid
  controls : List PendingControl
  ciphertext : Option Bytes
  epoch : Option ℕ
  controlMessageId : Option Uuid
  previousState : Option σ
  deriving DecidableEq

/-- The request that submits a control of a pending operation. -/
def PendingControl.submission (control : PendingControl) (senderDeviceId : Uuid) :
    SubmitControlMessageInput where
  id := control.id
  epoch := control.epoch
  membershipRevision := control.membershipRevision
  senderDeviceId := senderDeviceId
  recipientDeviceId := control.recipientDeviceId
  contentType := control.contentType
  envelope := control.envelope
  idempotencyKey := control.id

/-- `PendingApplication` of the native clients. -/
structure PendingApplication (σ : Type) where
  roomId : Uuid
  senderDeviceId : Uuid
  epoch : ℕ
  ciphertext : Bytes
  nextState : σ
  idempotencyKey : Uuid
  controlMessageId : Uuid
  attachmentParts : List AttachmentPart
  deriving DecidableEq

/-- `DirectMessageMetadata` of the native clients. -/
structure DirectMessageMetadata (σ : Type) where
  trustedIdentityFingerprints : Uuid → Option Bytes
  processedMessageIds : Uuid → List Uuid
  pendingApplication : Option (PendingApplication σ)
  attachmentPartsByMessageId : List (Uuid × List AttachmentPart)

/-- `DirectMessageMetadata()`. -/
def DirectMessageMetadata.empty {σ : Type} : DirectMessageMetadata σ where
  trustedIdentityFingerprints := fun _ => none
  processedMessageIds := fun _ => []
  pendingApplication := none
  attachmentPartsByMessageId := []

/-- `E2eeRootIdentity`. -/
structure RootIdentity where
  userId : Uuid
  publicKey : Bytes
  fingerprint : Bytes
  protocolVersion : ℕ
  deriving DecidableEq

/-- `E2eeIdentityTrustRecord`. -/
structure IdentityTrustRecord where
  trusted : RootIdentity
  pending : Option RootIdentity
  deriving DecidableEq

/-- `E2eeDeviceRegistrationMaterial`, without the state. -/
structure RegistrationMaterial where
  keyPackage : Bytes
  rootPublicKey : Bytes
  rootFingerprint : Bytes
  credential : Bytes
  credentialFingerprint : Bytes
  approvalPublicKey : Bytes
  deriving DecidableEq

/-- `E2eeRoomMemberDevices`: a member and the ids of the devices. -/
structure RoomMemberDevices where
  userId : Uuid
  devices : List Uuid
  deriving DecidableEq

/-- The input of `sendEncryptedMessage`. -/
structure SendEncryptedInput where
  roomId : Uuid
  senderDeviceId : Uuid
  epoch : ℕ
  ciphertext : Bytes
  idempotencyKey : Uuid
  controlMessageId : Option Uuid
  deriving DecidableEq

/-- What the clients throw, or what is thrown at them. -/
inductive ClientError where
  /-- `E2eeDirectMessageError`. -/
  | directMessage (message : String)
  /-- `E2eeDeviceNotReadyError`. -/
  | deviceNotReady (message : String)
  /-- `E2eeIdentityNotTrustedError`. -/
  | identityNotTrusted (message : String)
  /-- An answer of the API with an error status. -/
  | api (status : ℕ)
  /-- No answer of the API. -/
  | network
  /-- The core has no such leaf: its message contains "member not found". -/
  | memberNotFound
  /-- Any other error of the core. -/
  | core (message : String)
  /-- A field that is taken to be there (`!`) is missing. -/
  | missingField
  deriving DecidableEq

/-! ## Effects -/

/-- The local storage of an account. -/
inductive StorageEffect (σ : Type) where
  | read
  | write (state : σ)
  | readDeviceProfile
  | writeDeviceProfile (profile : DeviceProfile)
  | readPendingOperation
  | writePendingOperation (operation : PendingOperation σ)
  | deletePendingOperation
  | readRecords
  | writeRecords (records : Uuid → Option IdentityTrustRecord)
  | readMetadata
  | writeMetadata (metadata : DirectMessageMetadata σ)

@[reducible] def StorageEffect.Reply {σ : Type} : StorageEffect σ → Type
  | .read => Option σ
  | .readDeviceProfile => Option DeviceProfile
  | .readPendingOperation => Option (PendingOperation σ)
  | .readRecords => Uuid → Option IdentityTrustRecord
  | .readMetadata => Option (DirectMessageMetadata σ)
  | _ => Unit

/-- The commands of the MLS core.  Plaintexts are the payloads they encode. -/
inductive CoreCommand (σ : Type) where
  | initializeWithRoot (identity : Leaf) (rootPublicKey : Option Bytes)
  | publicMaterial (state : σ)
  | generateKeyPackage (state : σ)
  | createGroup (state : σ) (roomId : Uuid)
  | addMember (state : σ) (roomId : Uuid) (keyPackage : Bytes)
  | encrypt (state : σ) (roomId : Uuid) (plaintext : ApplicationPayload)
  | decrypt (state : σ) (roomId : Uuid) (ciphertext : Bytes)
  | joinGroup (state : σ) (welcome : Bytes)
  | processCommit (state : σ) (roomId : Uuid) (commit : Bytes)
  | removeMember (state : σ) (roomId : Uuid) (identity : Leaf)
  | listMembers (state : σ) (roomId : Uuid)

/-- The fields of a `removeMember` response. -/
structure RemovedMember (σ : Type) where
  state : σ
  commit : Bytes
  epoch : ℕ

/-- The fields of an `addMember` response. -/
structure AddedMember (σ : Type) where
  state : σ
  commit : Bytes
  welcome : Bytes
  epoch : ℕ

/-- The fields of an `encrypt` response. -/
structure Encrypted (σ : Type) where
  state : σ
  ciphertext : Bytes
  epoch : ℕ

/-- The fields of a `decrypt` response; no payload where the plaintext encodes none. -/
structure Decrypted (σ : Type) where
  state : σ
  payload : Option ApplicationPayload
  epoch : ℕ

@[reducible] def CoreCommand.Reply {σ : Type} : CoreCommand σ → Type
  | .initializeWithRoot .. => σ × RegistrationMaterial
  | .publicMaterial .. => σ × RegistrationMaterial
  | .generateKeyPackage .. => σ × Bytes
  | .createGroup .. => σ
  | .addMember .. => AddedMember σ
  | .encrypt .. => Encrypted σ
  | .decrypt .. => Decrypted σ
  | .joinGroup .. => σ × ℕ
  | .processCommit .. => σ × ℕ
  | .removeMember .. => RemovedMember σ
  | .listMembers .. => List Leaf

/-- The requests of the HTTP API. -/
inductive ApiRequest where
  | getRoomEpoch (roomId : Uuid)
  | listRoomMemberDevices (roomId : Uuid)
  | claimKeyPackage (roomId consumerDeviceId targetDeviceId : Uuid)
  | submitControlMessage (roomId : Uuid) (input : SubmitControlMessageInput)
  | sendEncryptedMessage (input : SendEncryptedInput)
  | listControlMessages (roomId deviceId : Uuid) (afterSequence limit : ℕ)
  | consumeControlMessage (roomId messageId deviceId : Uuid)
  | fetchRootIdentity (userId : Uuid)
  | registerDevice (deviceId : Uuid) (deviceLabel : String) (material : RegistrationMaterial)
  | listDevices
  | publishKeyPackages (deviceId : Uuid) (keyPackages : List Bytes)
  | fetchKeyPackageInventory (deviceId : Uuid)
  deriving DecidableEq

@[reducible] def ApiRequest.Reply : ApiRequest → Type
  | .getRoomEpoch .. => RoomEpoch
  | .listRoomMemberDevices .. => List RoomMemberDevices
  | .claimKeyPackage .. => Bytes
  | .submitControlMessage .. => Unit
  | .sendEncryptedMessage .. => Uuid
  | .listControlMessages .. => List ControlMessage
  | .consumeControlMessage .. => Unit
  | .fetchRootIdentity .. => RootIdentity
  | .registerDevice .. => DeviceStatus
  | .listDevices => List (Uuid × DeviceStatus)
  | .publishKeyPackages .. => ℕ
  | .fetchKeyPackageInventory .. => ℕ

/-- What a client awaits from elsewhere than its storage. -/
inductive RemoteEffect (σ : Type) where
  | core (e : CoreCommand σ)
  | api (e : ApiRequest)
  /-- `crypto.randomUUID()`. -/
  | newId
  /-- `Date.now()`. -/
  | now

@[reducible] def RemoteEffect.Reply {σ : Type} : RemoteEffect σ → Type
  | .core e => e.Reply
  | .api e => e.Reply
  | .newId => Uuid
  | .now => Timestamp

/-- Everything a client awaits. -/
inductive Effect (σ : Type) where
  | storage (e : StorageEffect σ)
  | remote (e : RemoteEffect σ)

@[reducible] def Effect.Reply {σ : Type} : Effect σ → Type
  | .storage e => e.Reply
  | .remote e => e.Reply

/-- The effects as a signature. -/
@[reducible] def clientEffects (σ : Type) : Signature where
  Effect := Effect σ
  Reply := Effect.Reply
  Error := ClientError

/-- A program of a client. -/
abbrev Act (σ α : Type) : Type := Action (clientEffects σ) α

/-- What comes back from elsewhere. -/
abbrev Answer {σ : Type} (e : RemoteEffect σ) : Type := Except ClientError e.Reply

/-- Await the storage. -/
def store {σ : Type} (e : StorageEffect σ) : Act σ e.Reply :=
  Action.perform (S := clientEffects σ) (.storage e)

/-- Await something else. -/
def remote {σ : Type} (e : RemoteEffect σ) : Act σ e.Reply :=
  Action.perform (S := clientEffects σ) (.remote e)

/-- Await the core. -/
abbrev core {σ : Type} (e : CoreCommand σ) : Act σ e.Reply := remote (.core e)

/-- Await the API. -/
abbrev api {σ : Type} (e : ApiRequest) : Act σ e.Reply := remote (.api e)

/-- A fresh identifier. -/
abbrev newId {σ : Type} : Act σ Uuid := remote .newId

/-- Throw an error. -/
abbrev raise {σ α : Type} (err : ClientError) : Act σ α := Action.fail err

/-! ## Worlds -/

/-- What is stored on the device for an account. -/
structure DeviceStore (σ : Type) where
  state : Option σ
  profile : Option DeviceProfile
  pending : Option (PendingOperation σ)
  records : Uuid → Option IdentityTrustRecord
  metadata : Option (DirectMessageMetadata σ)

/-- The storage answers, and changes. -/
def DeviceStore.perform {σ : Type} (s : DeviceStore σ) :
    (e : StorageEffect σ) → e.Reply × DeviceStore σ
  | .read => (s.state, s)
  | .write state => ((), { s with state := some state })
  | .readDeviceProfile => (s.profile, s)
  | .writeDeviceProfile profile => ((), { s with profile := some profile })
  | .readPendingOperation => (s.pending, s)
  | .writePendingOperation operation => ((), { s with pending := some operation })
  | .deletePendingOperation => ((), { s with pending := none })
  | .readRecords => (s.records, s)
  | .writeRecords records => ((), { s with records := records })
  | .readMetadata => (s.metadata, s)
  | .writeMetadata metadata => ((), { s with metadata := some metadata })

/-- A device and whatever it talks to. -/
structure World (σ ρ : Type) where
  device : DeviceStore σ
  host : ρ

/-- What answers from elsewhere: the core, the servers with all their other clients, the
network. -/
abbrev Host (σ ρ : Type) : Type := ρ → (e : RemoteEffect σ) → Answer e → ρ → Prop

/-- The storage together with a host. -/
def Host.env {σ ρ : Type} (host : Host σ ρ) : Env (clientEffects σ) (World σ ρ)
  | w, .storage e, r, w' =>
    r = .ok (w.device.perform e).1 ∧ w' = { w with device := (w.device.perform e).2 }
  | w, .remote e, r, w' => ∃ h, host w.host e r h ∧ w' = { w with host := h }

/-- A host that answers in one way. -/
def Host.of {σ ρ : Type} (f : ρ → (e : RemoteEffect σ) → Answer e × ρ) : Host σ ρ :=
  fun h e r h' => f h e = (r, h')

/-- The storage together with a host that answers in one way. -/
def worldHandler {σ ρ : Type} (f : ρ → (e : RemoteEffect σ) → Answer e × ρ) :
    Handler (clientEffects σ) (World σ ρ)
  | w, .storage e => (.ok (w.device.perform e).1, { w with device := (w.device.perform e).2 })
  | w, .remote e => ((f w.host e).1, { w with host := (f w.host e).2 })

theorem env_worldHandler {σ ρ : Type} (f : ρ → (e : RemoteEffect σ) → Answer e × ρ) :
    (worldHandler f).env = (Host.of f).env := by
  funext w e r w'
  refine propext ?_
  cases e with
  | storage e =>
    constructor
    · intro h
      obtain ⟨h₁, h₂⟩ := Prod.mk.inj h
      exact ⟨h₁.symm, h₂.symm⟩
    · rintro ⟨rfl, rfl⟩
      rfl
  | remote e =>
    constructor
    · intro h
      obtain ⟨h₁, h₂⟩ := Prod.mk.inj h
      exact ⟨(f w.host e).2, Prod.ext h₁ rfl, h₂.symm⟩
    · rintro ⟨h, hf, rfl⟩
      have hf' : f w.host e = (r, h) := hf
      change ((f w.host e).1, ({ w with host := (f w.host e).2 } : World σ ρ)) = _
      rw [hf']

/-- What a host keeps, whatever it answers. -/
abbrev Stable {σ ρ : Type} (host : Host σ ρ) (I : ρ → Prop) : Prop :=
  ∀ ⦃h e r h'⦄, I h → host h e r h' → I h'

/-- A host in some of its states. -/
def Host.within {σ ρ : Type} (host : Host σ ρ) (I : ρ → Prop) : Host σ ρ :=
  fun h e r h' => I h ∧ host h e r h'

section

variable {σ ρ α : Type} {host : Host σ ρ} {p p' : Act σ α} {w w' : World σ ρ}
  {events : List (Event (clientEffects σ))} {o : Outcome (clientEffects σ) α}

/-- What the host keeps holds throughout a run. -/
theorem run_within {I : ρ → Prop} (hkeep : Stable host I)
    (hI : I w.host) (hrun : Action.Run host.env p w events p' w') :
    Action.Run (host.within I).env p w events p' w' ∧ I w'.host := by
  induction hrun with
  | refl => exact ⟨.refl _ _, hI⟩
  | @step e k w₁ w₂ w₃ r events p he hrest ih =>
    cases e with
    | storage e =>
      obtain ⟨rfl, rfl⟩ := he
      exact ⟨.step ⟨rfl, rfl⟩ (ih hI).1, (ih hI).2⟩
    | remote e =>
      obtain ⟨h, hr, rfl⟩ := he
      have hI' : I h := hkeep hI hr
      exact ⟨.step ⟨h, ⟨hI, hr⟩, rfl⟩ (ih hI').1, (ih hI').2⟩

theorem run_store_bind {e : StorageEffect σ} {f : e.Reply → Act σ α}
    (hrun : Action.Run host.env (store e >>= f) w events (Action.ended o) w') :
    ∃ rest, events = ⟨.storage e, .ok (w.device.perform e).1⟩ :: rest ∧
      Action.Run host.env (f (w.device.perform e).1)
        { w with device := (w.device.perform e).2 } rest (Action.ended o) w' := by
  obtain ⟨r, w₁, rest, ⟨rfl, rfl⟩, rfl, hrest⟩ := Action.Run.of_await hrun
  exact ⟨rest, rfl, hrest⟩

theorem run_remote_bind {e : RemoteEffect σ} {f : e.Reply → Act σ α}
    (hrun : Action.Run host.env (remote e >>= f) w events (Action.ended o) w') :
    (∃ a h rest, host w.host e (.ok a) h ∧ events = ⟨.remote e, .ok a⟩ :: rest ∧
      Action.Run host.env (f a) { w with host := h } rest (Action.ended o) w') ∨
    ∃ err h, host w.host e (.error err) h ∧ events = [⟨.remote e, .error err⟩] ∧
      o = .fail err ∧ w' = { w with host := h } := by
  obtain ⟨r, w₁, rest, ⟨h, hr, rfl⟩, rfl, hrest⟩ := Action.Run.of_await hrun
  cases r with
  | ok a => exact Or.inl ⟨a, h, rest, hr, rfl, hrest⟩
  | error err =>
    obtain ⟨ho, rfl, hw⟩ := Action.Run.of_ended (o := .fail err) hrest
    exact Or.inr ⟨err, h, hr, rfl, ho, hw⟩

end

section

variable {σ ρ α : Type} {host : Host σ ρ} {G : World σ ρ → Effect σ → Prop}
  {Q : Outcome (clientEffects σ) α → World σ ρ → Prop} {w : World σ ρ}

theorem always_store {e : StorageEffect σ}
    {Q : Outcome (clientEffects σ) e.Reply → World σ ρ → Prop} :
    Action.Always host.env G Q (store e) w ↔ G w (.storage e) ∧
      Q (.done (w.device.perform e).1) { w with device := (w.device.perform e).2 } := by
  refine (Action.always_perform (S := clientEffects σ) (e := .storage e) (Q := Q)).trans ?_
  refine and_congr_right fun _ => ⟨fun h => h _ _ ⟨rfl, rfl⟩, ?_⟩
  rintro h r w' ⟨rfl, rfl⟩
  exact h

theorem always_store_bind {e : StorageEffect σ} {f : e.Reply → Act σ α} :
    Action.Always host.env G Q (store e >>= f) w ↔ G w (.storage e) ∧
      Action.Always host.env G Q (f (w.device.perform e).1)
        { w with device := (w.device.perform e).2 } := by
  refine Action.always_perform_bind.trans ?_
  refine and_congr_right fun _ => ⟨fun h => h _ _ ⟨rfl, rfl⟩, ?_⟩
  rintro h r w' ⟨rfl, rfl⟩
  exact h

theorem always_remote {e : RemoteEffect σ}
    {Q : Outcome (clientEffects σ) e.Reply → World σ ρ → Prop} :
    Action.Always host.env G Q (remote e) w ↔ G w (.remote e) ∧
      ∀ (r : Answer e) (h : ρ), host w.host e r h → match r with
        | .ok a => Q (.done a) { w with host := h }
        | .error err => Q (.fail err) { w with host := h } := by
  refine (Action.always_perform (S := clientEffects σ) (e := .remote e) (Q := Q)).trans ?_
  refine and_congr_right fun _ => ⟨fun hall r h hr => ?_, ?_⟩
  · have hr' := hall r _ ⟨h, hr, rfl⟩
    cases r <;> exact hr'
  · rintro hall r w' ⟨h, hr, rfl⟩
    have hr' := hall r h hr
    cases r <;> exact hr'

theorem always_remote_bind {e : RemoteEffect σ} {f : e.Reply → Act σ α} :
    Action.Always host.env G Q (remote e >>= f) w ↔ G w (.remote e) ∧
      ∀ (r : Answer e) (h : ρ), host w.host e r h → match r with
        | .ok a => Action.Always host.env G Q (f a) { w with host := h }
        | .error err => Q (.fail err) { w with host := h } := by
  refine Action.always_perform_bind.trans ?_
  refine and_congr_right fun _ => ⟨fun hall r h hr => ?_, ?_⟩
  · have hr' := hall r _ ⟨h, hr, rfl⟩
    cases r <;> exact hr'
  · rintro hall r w' ⟨h, hr, rfl⟩
    have hr' := hall r h hr
    cases r <;> exact hr'

end

end RedcodeIm
