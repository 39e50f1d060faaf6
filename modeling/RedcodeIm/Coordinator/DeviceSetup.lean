import RedcodeIm.Lib.Restarts
import RedcodeIm.Lib.Text
import RedcodeIm.Devices.DeviceCalls
import RedcodeIm.Devices.DeviceTrust
import RedcodeIm.Coordinator.Requests

/-!
# The set-up of a device

A device of the H5 client is set up by `ensureReady`, over and over: each run may be cut short
at any effect, requests and answers may be lost, and the other devices of the account register
meanwhile.

* `registerMlsDevice`, `publishMlsKeyPackages` — the handlers.
* `Install`, `Install.Lawful` — the client: its core, and the identifiers it draws.
* `Install.host` — what answers it: the core and the server.
* `Install.Others` — what the others do to the server.
* `Install.History` — the runs of one installation among the others.
* `LeftAlone` — what the others leave of what belongs to the installation.
-/

namespace RedcodeIm

open Awaiting Restarts

/-! ## The handlers -/

/-- `decode_b64_range`, after the decoding. -/
def checkRange (field : String) (bytes : Bytes) (least most : ℕ) : Except AppError Bytes :=
  if bytes.length < least ∨ most < bytes.length then
    .error (.validationError s!"{field} 解码后长度必须在 {least} 到 {most} 字节之间")
  else .ok bytes

/-- `value.trim().to_string()`, if anything is left of it. -/
def trimmedText (value : String) : Option String :=
  if Text.trim value = "" then none else some (Text.trim value)

/-- `register_mls_device`, up to the store, for what the H5 client sends. -/
def registerMlsDevice (verifyingKey : Bytes → Bool) (clientVersion : String) (deviceId : Uuid)
    (deviceLabel : String) (material : RegistrationMaterial) :
    Except AppError RegisterDeviceInput :=
  if Text.trim deviceLabel = "" ∨ 128 < (Text.trim deviceLabel).utf8ByteSize then
    .error (.validationError "device_label 无效")
  else do
    let rootPublicKey ← checkRange "root_public_key" material.rootPublicKey 1 4096
    let rootFingerprint ← checkRange "root_fingerprint" material.rootFingerprint 16 128
    let credential ← checkRange "credential" material.credential 1 65536
    let credentialFingerprint ←
      checkRange "credential_fingerprint" material.credentialFingerprint 16 128
    let approvalPublicKey ← checkRange "approval_public_key" material.approvalPublicKey 32 32
    if verifyingKey approvalPublicKey = false then
      .error (.validationError "approval_public_key 不是有效 Ed25519 公钥")
    else if (trimmedText clientVersion).any fun version => 64 < version.utf8ByteSize then
      .error (.validationError "client_version 过长")
    else
      .ok { deviceId := deviceId
            deviceLabel := Text.trim deviceLabel
            rootPublicKey := rootPublicKey
            rootFingerprint := rootFingerprint
            credential := credential
            credentialFingerprint := credentialFingerprint
            approvalPublicKey := approvalPublicKey
            protocolVersion := 1
            clientPlatform := some "h5"
            clientVersion := trimmedText clientVersion
            clientBuild := some "web" }

/-- `MAX_KEY_PACKAGES_PER_REQUEST`. -/
def maxKeyPackagesPerRequest : ℕ := 100

/-- `MAX_KEY_PACKAGE_LIFETIME_DAYS`, in milliseconds. -/
def maxKeyPackageLifetime : ℕ := 30 * 24 * 60 * 60 * 1000

/-- The checks of `publish_mls_key_packages` on a package. -/
def checkKeyPackage (now : Timestamp) (p : NewKeyPackage) : Except AppError Unit :=
  if p.protocolVersion ≠ 1 then .error (.validationError "仅支持 MLS protocol_version=1")
  else if p.expiresAt ≤ now ∨ now + maxKeyPackageLifetime < p.expiresAt then
    .error (.validationError "expires_at 必须在未来 30 天内")
  else do
    let _ ← checkRange "package_ref" p.packageRef 16 128
    let _ ← checkRange "key_package" p.keyPackage 1 1048576
    .ok ()

/-- `publish_mls_key_packages`, up to the store. -/
def publishMlsKeyPackages (now : Timestamp) (userId deviceId : Uuid)
    (packages : List NewKeyPackage) : Except AppError Request :=
  if packages = [] ∨ maxKeyPackagesPerRequest < packages.length then
    .error (.validationError
      s!"packages 数量必须在 1 到 {maxKeyPackagesPerRequest} 之间")
  else do
    packages.forM (checkKeyPackage now)
    .ok (.publishKeyPackages userId deviceId packages)

/-! ## The client -/

/-- An installation of the client for an account. -/
structure Install (σ : Type) where
  accountId : Uuid
  clientVersion : String
  /-- What the commands of the core can answer. -/
  core : (e : CoreCommand σ) → Except ClientError e.Reply → Prop
  /-- The account states the core makes. -/
  sound : σ → Prop
  /-- `public_material` of an account state. -/
  material : σ → RegistrationMaterial
  /-- SHA-256. -/
  digest : Bytes → Bytes
  /-- `VerifyingKey::from_bytes`. -/
  verifyingKey : Bytes → Bool
  /-- The identifiers that are drawn on this installation. -/
  ids : Set Uuid
  /-- The fingerprints of the credentials that are made on it. -/
  prints : Set Bytes

variable {σ : Type}

/-- What a registration of a device comes to. -/
def Install.input (install : Install σ) (deviceId : Uuid) (deviceLabel : String)
    (material : RegistrationMaterial) : RegisterDeviceInput where
  deviceId := deviceId
  deviceLabel := Text.trim deviceLabel
  rootPublicKey := material.rootPublicKey
  rootFingerprint := material.rootFingerprint
  credential := material.credential
  credentialFingerprint := material.credentialFingerprint
  approvalPublicKey := material.approvalPublicKey
  protocolVersion := 1
  clientPlatform := some "h5"
  clientVersion := trimmedText install.clientVersion
  clientBuild := some "web"

/-- The public material of an account state has the lengths the core gives it. -/
structure Install.Formed (install : Install σ) (m : RegistrationMaterial) : Prop where
  keyPackage : m.keyPackage = []
  rootPublicKey : m.rootPublicKey.length = 32
  rootFingerprint : m.rootFingerprint = install.digest m.rootPublicKey
  credential : 1 ≤ m.credential.length ∧ m.credential.length ≤ 65536
  credentialFingerprint : m.credentialFingerprint.length = 32
  approvalPublicKey : m.approvalPublicKey.length = 32
  verifyingKey : install.verifyingKey m.approvalPublicKey = true

/-- A device label the server takes, as those of the client are. -/
structure AcceptedLabel (label : String) : Prop where
  present : Text.trim label ≠ ""
  bytes : (Text.trim label).utf8ByteSize ≤ 128
  stored : notBlank (Text.trim label) = true ∧ (Text.trim label).length ≤ 128

/-- What is relied on of the core and of the client: `initialize_with_root`, `public_material`
and `generate_key_package` keep to the identity, and answer. -/
structure Install.Lawful (install : Install σ) : Prop where
  initialized : ∀ {deviceId root made},
    install.core (.initializeWithRoot ⟨install.accountId, deviceId⟩ root) (.ok made) →
      install.sound made.1 ∧ { made.2 with keyPackage := [] } = install.material made.1 ∧
      (∀ key, root = some key → made.2.rootPublicKey = key) ∧
      (deviceId ∈ install.ids → made.2.credentialFingerprint ∈ install.prints)
  publicMaterial : ∀ {state restored}, install.core (.publicMaterial state) (.ok restored) →
    restored.2 = install.material state
  generateKeyPackage : ∀ {state generated}, install.sound state →
    install.core (.generateKeyPackage state) (.ok generated) →
      install.sound generated.1 ∧ install.material generated.1 = install.material state
  formed : ∀ {state}, install.sound state → install.Formed (install.material state)
  digest : ∀ bytes, (install.digest bytes).length = 32
  initializes : ∀ deviceId root, (∀ key, root = some key → key.length = 32) →
    ∃ made, install.core (.initializeWithRoot ⟨install.accountId, deviceId⟩ root) (.ok made)
  restores : ∀ {state}, install.sound state →
    ∃ restored, install.core (.publicMaterial state) (.ok restored)
  generates : ∀ {state}, install.sound state →
    ∃ generated, install.core (.generateKeyPackage state) (.ok generated) ∧
      1 ≤ generated.2.length ∧ generated.2.length ≤ 1048576
  drawn : install.ids.Nonempty
  version : ∀ t, trimmedText install.clientVersion = some t →
    t.utf8ByteSize ≤ 64 ∧ notBlank t = true ∧ t.length ≤ 64

/-! ## The server -/

/-- `MlsAccountIdentityResponse`. -/
def AccountIdentity.root (i : AccountIdentity) : RootIdentity where
  userId := i.userId
  publicKey := i.rootPublicKey
  fingerprint := i.rootFingerprint
  protocolVersion := i.protocolVersion

/-- `list_devices`: the ids and statuses. -/
def Db.listDevices (db : Db) (userId : Uuid) : List (Uuid × DeviceStatus) :=
  (db.devices.rows.filter fun d => d.userId = userId).map fun d => (d.id, d.status)

/-- The answer to a registration. -/
def registeredAnswer : Except AppError Response → Except ClientError DeviceStatus
  | .ok (.device d) => .ok d.status
  | .ok _ => .error (.api 500)
  | .error err => .error (.api err.statusCode)

/-- The answer to a publication. -/
def publishedAnswer : Except AppError Response → Except ClientError ℕ
  | .ok (.published n) => .ok n
  | .ok _ => .error (.api 500)
  | .error err => .error (.api err.statusCode)

/-- `publishKeyPackages` of the service: each package under a new id and its digest. -/
def Install.Packs (install : Install σ) (keyPackages : List Bytes)
    (packages : List NewKeyPackage) : Prop :=
  List.Forall₂ (fun keyPackage (p : NewKeyPackage) => p.keyPackage = keyPackage ∧
    p.packageRef = install.digest keyPackage ∧ p.protocolVersion = 1) keyPackages packages

/-- The server carries out a request and answers it. -/
def Install.Serves (install : Install σ) (s : Server) :
    (e : ApiRequest) → Except ClientError e.Reply → Server → Prop
  | .fetchRootIdentity userId, r, s' => s' = s ∧
    r = match s.db.identities.get userId with
      | some i => .ok i.root
      | none => .error (.api 404)
  | .registerDevice deviceId deviceLabel material, r, s' =>
    ∃ out, out = s.handle ((registerMlsDevice install.verifyingKey install.clientVersion deviceId
      deviceLabel material).map (.registerDevice install.accountId)) ∧
      r = registeredAnswer out.1 ∧ s' = out.2
  | .listDevices, r, s' => s' = s ∧ r = .ok (s.db.listDevices install.accountId)
  | .publishKeyPackages deviceId keyPackages, r, s' =>
    ∃ packages out, install.Packs keyPackages packages ∧
      out = s.handle (publishMlsKeyPackages s.now install.accountId deviceId packages) ∧
      r = publishedAnswer out.1 ∧ s' = out.2
  | _, _, _ => False

/-- What answers the client: a request can fail before or after it has been carried out. -/
def Install.host (install : Install σ) : Host σ Server
  | s, .core e, r, s' => install.core e r ∧ s' = s
  | s, .api e, r, s' => install.Serves s e r s' ∨
    ∃ err, err ≠ .api 404 ∧ r = .error err ∧ (s' = s ∨ ∃ answer, install.Serves s e answer s')
  | s, .newId, r, s' => (∃ id ∈ install.ids, r = .ok id) ∧ s' = s
  | s, .now, r, s' => r = .ok s.now ∧ s' = s

/-! ## The others -/

/-- A root identity as the core makes it. -/
structure Install.Genuine (install : Install σ) (publicKey fingerprint : Bytes)
    (protocolVersion : ℕ) : Prop where
  length : publicKey.length = 32
  digest : fingerprint = install.digest publicKey
  version : protocolVersion = 1

/-- A call of others: a registration is one of another device, with another credential, and with
a root identity of the core; this device is not revoked. -/
def Install.Foreign (install : Install σ) : Request → Prop
  | .registerDevice userId input => input.deviceId ∉ install.ids ∧
    (userId = install.accountId → input.credentialFingerprint ∉ install.prints ∧
      install.Genuine input.rootPublicKey input.rootFingerprint input.protocolVersion)
  | .revokeDevice _ deviceId => deviceId ∉ install.ids
  | _ => True

/-- What the others do, as far as the condition allows: they call the server, or time passes. -/
inductive Install.Others (install : Install σ) (condition : World σ Server → Request → Prop)
    (w : World σ Server) : World σ Server → Prop where
  | call (r : Request) (hforeign : install.Foreign r) (hcond : condition w r) :
      Install.Others install condition w { w with host := (w.host.call r).2 }
  | tick (n : ℕ) : Install.Others install condition w { w with host := w.host.tick n }

/-- The calls that set the device up. -/
def Install.Calls (install : Install σ) (p : Act σ (DeviceProfile × σ)) : Prop :=
  ∃ deviceLabel, AcceptedLabel deviceLabel ∧ p = ensureReady install.accountId deviceLabel

/-- Where the runs happen: among the others, and as far as the conditions allow. -/
abbrev Install.surroundings (install : Install σ) (C : World σ Server → Request → Prop)
    (K : World σ Server → Effect σ → Prop) : Env (clientEffects σ) (World σ Server) :=
  among (install.Others C) (Env.guard K install.host.env)

/-- Runs of `ensureReady` one after another, each cut short anywhere, among the others, as far
as the conditions allow. -/
abbrev Install.HistoryUnder (install : Install σ) (C : World σ Server → Request → Prop)
    (K : World σ Server → Effect σ → Prop) : World σ Server → World σ Server → Prop :=
  Restarts.History (Env.guard K install.host.env) (install.Others C) install.Calls

/-- The runs of one installation, whatever happens. -/
abbrev Install.History (install : Install σ) : World σ Server → World σ Server → Prop :=
  install.HistoryUnder (fun _ _ => True) fun _ _ => True

/-! ## What the others leave alone -/

/-- The device is the same; it may have been approved since. -/
structure SameDevice (x x' : Device) : Prop where
  userId : x'.userId = x.userId
  agrees : ∀ input, x'.agrees input = x.agrees input
  active : x.status = .active → x'.status = .active
  standing : x.status ≠ .revoked → x'.status ≠ .revoked

theorem SameDevice.refl (x : Device) : SameDevice x x := ⟨rfl, fun _ => rfl, id, id⟩

theorem SameDevice.trans {x x' x'' : Device} (h : SameDevice x x') (h' : SameDevice x' x'') :
    SameDevice x x'' :=
  ⟨h'.userId.trans h.userId, fun input => (h'.agrees input).trans (h.agrees input),
    fun ha => h'.active (h.active ha), fun hs => h'.standing (h.standing hs)⟩

/-- Of the account's devices only those of the installation have credentials made on it. -/
def Install.OwnPrints (install : Install σ) (db : Db) : Prop :=
  ∀ x ∈ db.devices.rows, x.userId = install.accountId →
    x.credentialFingerprint ∈ install.prints → x.id ∈ install.ids

/-- What belongs to the installation is as it was, but that its device may have been approved
and the account may have got its identity. -/
structure LeftAlone (install : Install σ) (db db' : Db) : Prop where
  identity : ∀ i, db.identities.get install.accountId = some i →
    db'.identities.get install.accountId = some i
  genuine : ∀ i, db'.identities.get install.accountId = some i →
    db.identities.get install.accountId = some i ∨
      install.Genuine i.rootPublicKey i.rootFingerprint i.protocolVersion
  devices : ∀ d ∈ install.ids, ∀ x', db'.devices.get d = some x' →
    ∃ x, db.devices.get d = some x ∧ SameDevice x x'
  device : ∀ d ∈ install.ids, ∀ x, db.devices.get d = some x →
    ∃ x', db'.devices.get d = some x' ∧ SameDevice x x'
  prints : install.OwnPrints db → install.OwnPrints db'

section

variable {install : Install σ} {db db' : Db}

theorem leftAlone_of_eq (hi : db'.identities = db.identities) (hd : db'.devices = db.devices) :
    LeftAlone install db db' where
  identity i h := by rwa [hi]
  genuine i h := Or.inl (by rwa [hi] at h)
  devices d _ x h := ⟨x, by rwa [hd] at h, .refl x⟩
  device d _ x h := ⟨x, by rwa [hd], .refl x⟩
  prints h x hx := h x (by rwa [hd] at hx)

/-- A device is put in the place of itself. -/
theorem undisturbed_of_put {x y : Device} (hi : db'.identities = db.identities)
    (hd : db'.devices = db.devices.put y) (hx : db.devices.get x.id = some x) (hid : y.id = x.id)
    (hprint : y.credentialFingerprint = x.credentialFingerprint) (hu : y.userId = x.userId)
    (hsame : x.id ∈ install.ids → SameDevice x y) : LeftAlone install db db' := by
  have hget := get_devices_put hd
  refine ⟨fun i h => by rwa [hi], fun i h => Or.inl (by rwa [hi] at h), ?_, ?_, ?_⟩
  · intro d hids x' hx'
    rw [hget, hid] at hx'
    by_cases he : x.id = d
    · rw [if_pos he] at hx'
      cases hx'
      subst he
      exact ⟨x, hx, hsame hids⟩
    · rw [if_neg he] at hx'
      exact ⟨x', hx', .refl x'⟩
  · intro d hids z hz
    rw [hget, hid]
    by_cases he : x.id = d
    · subst he
      rw [hx] at hz
      cases hz
      exact ⟨y, if_pos rfl, hsame hids⟩
    · exact ⟨z, by rwa [if_neg he], .refl z⟩
  · intro hprints z hz hz' hz''
    rw [hd] at hz
    rcases Table.mem_put hz with ⟨hz, -⟩ | rfl
    · exact hprints z hz hz' hz''
    · rw [hid]
      exact hprints x (Table.mem_of_get hx) (hu ▸ hz') (hprint ▸ hz'')

/-- Another device is inserted. -/
theorem undisturbed_of_insert {x : Device} (hd : db'.devices = db.devices.insert x)
    (hid : x.id ∉ install.ids)
    (hprint : x.userId = install.accountId → x.credentialFingerprint ∉ install.prints)
    (hi : ∀ i, db.identities.get install.accountId = some i →
      db'.identities.get install.accountId = some i)
    (hi' : ∀ i, db'.identities.get install.accountId = some i →
      db.identities.get install.accountId = some i ∨
        install.Genuine i.rootPublicKey i.rootFingerprint i.protocolVersion) :
    LeftAlone install db db' := by
  have hget : ∀ d ∈ install.ids, db'.devices.get d = db.devices.get d := by
    intro d hids
    rw [hd]
    exact Table.get_insert_ne fun he => hid (he ▸ hids)
  refine ⟨hi, hi', fun d hids x' h => ⟨x', by rwa [hget d hids] at h, .refl x'⟩,
    fun d hids x h => ⟨x, by rwa [hget d hids], .refl x⟩, fun hprints z hz hz' hz'' => ?_⟩
  rw [hd] at hz
  rcases Table.mem_insert hz with hz | rfl
  · exact hprints z hz hz' hz''
  · exact absurd hz'' (hprint hz')

/-- **A call of others** leaves alone what belongs to the installation. -/
theorem Install.Foreign.leftAlone {s : Server} {r : Request} (h : install.Foreign r)
    (hs : s.Settled) : LeftAlone install s.db (s.call r).2.db := by
  obtain ⟨w, hw, hleaves⟩ := hs.leaves r
  rw [← hw]
  rcases hleaves with ⟨hi, hd⟩ | ⟨ws, he, hdb⟩
  · exact leftAlone_of_eq hi hd
  · rw [hdb]
    cases he with
    | @register userId input firstDevice opening habs hfirst hlater =>
      obtain ⟨hid, haccount⟩ := h
      cases firstDevice with
      | false =>
        obtain ⟨rfl, -⟩ := hlater rfl
        exact undisturbed_of_insert rfl hid (fun hu => (haccount hu).1) (fun _ h => h)
          fun _ h => Or.inl h
      | true =>
        obtain ⟨rfl, hnone⟩ := hfirst rfl
        have hget : ∀ u, (w.db.identities.insert (input.identity userId s.now)).get u
            = if userId = u then some (input.identity userId s.now) else w.db.identities.get u :=
          Table.get_insert_of_none hnone
        refine undisturbed_of_insert rfl hid (fun hu => (haccount hu).1)
          (fun i hi => Table.get_insert_of_get hi) fun i hi => ?_
        have hi' := (hget install.accountId).symm.trans hi
        by_cases hu : userId = install.accountId
        · rw [if_pos hu] at hi'
          cases hi'
          exact Or.inr (haccount hu).2
        · rw [if_neg hu] at hi'
          exact Or.inl hi'
    | @approve userId approver target d rest hne ha hd hs' hfree =>
      obtain ⟨hget, hu, hid⟩ := userDevice_eq_some hd
      obtain ⟨hrest, hrest'⟩ := hfree.applyAll (w.db.apply (.putDevice (d.approve approver s.now)))
      have hrow : w.db.devices.get d.id = some d := by rwa [hid]
      refine undisturbed_of_put hrest hrest' hrow rfl rfl rfl fun _ => ?_
      exact ⟨rfl, fun _ => rfl, fun _ => rfl, fun _ => by simp [Device.approve]⟩
    | @revoke userId deviceId d rest hd hs' hfree =>
      obtain ⟨hget, hu, hid⟩ := userDevice_eq_some hd
      obtain ⟨hrest, hrest'⟩ := hfree.applyAll (w.db.apply (.putDevice (d.revoke s.now)))
      have hrow : w.db.devices.get d.id = some d := by rwa [hid]
      refine undisturbed_of_put hrest hrest' hrow rfl rfl rfl fun hids => ?_
      rw [hid] at hids
      exact absurd hids h

end

end RedcodeIm
