import RedcodeIm.Coordinator.Client

/-!
# The device lifecycle

`E2eeDeviceLifecycle` of the H5 client: setting a device up, and keeping its stock of key
packages at the server.

* `ensureReady` — `ensureReady`.
* `topUpKeyPackages` — `doTopUp`, which `topUpKeyPackages` runs once at a time.
-/

namespace RedcodeIm

open Awaiting

variable {σ : Type}

/-- `KEY_PACKAGE_LOW_WATERMARK`. -/
def keyPackageLowWatermark : ℕ := 10

/-- `KEY_PACKAGE_TARGET`. -/
def keyPackageTarget : ℕ := 40

/-- `KEY_PACKAGE_BATCH_LIMIT`. -/
def keyPackageBatchLimit : ℕ := 20

/-- `REPLENISH_RETRY_AFTER_MS`. -/
def replenishRetryAfterMs : ℕ := 60000

/-- The root key of the account, where it has one. -/
def fetchRootPublicKey (accountId : Uuid) : Act σ (Option Bytes) := do
  match ← (api (.fetchRootIdentity accountId)).attempt with
  | .ok identity => pure (some identity.publicKey)
  | .error (.api 404) => pure none
  | .error err => raise err

/-- The profile of a device that is new. -/
def newProfile (deviceLabel : String) (deviceId : Uuid) : DeviceProfile where
  deviceId := deviceId
  deviceLabel := deviceLabel
  registered := false
  keyPackagePublished := false
  deviceStatus := .active
  lastControlSequences := fun _ => none
  lastCommitMessageIds := fun _ => none

/-- The profile that is stored, or a new one. -/
def profileOrNew (deviceLabel : String) : Option DeviceProfile → Act σ DeviceProfile
  | some profile => pure profile
  | none => newProfile deviceLabel <$> newId

/-- The first part of `ensureReady`: the profile, the state and what is registered of it. -/
def ensureMaterial (accountId : Uuid) (deviceLabel : String) :
    Act σ (DeviceProfile × σ × RegistrationMaterial) := do
  let state ← store .read
  let stored ← store .readDeviceProfile
  match state, stored with
  | some _, none => raise (.deviceNotReady "E2EE 设备状态不完整，拒绝重新生成身份")
  | some state, some profile =>
    let restored ← core (.publicMaterial state)
    pure (profile, state, restored.2)
  | none, stored =>
    if stored.any (·.registered) then
      raise (.deviceNotReady "E2EE 已注册设备状态缺失，拒绝重新生成身份")
    else
      let rootPublicKey ← fetchRootPublicKey accountId
      let profile ← profileOrNew deviceLabel stored
      store (.writeDeviceProfile profile)
      let made ← core (.initializeWithRoot ⟨accountId, profile.deviceId⟩ rootPublicKey)
      store (.write made.1)
      pure (profile, made.1, made.2)

/-- Register the device, unless it is.  A device that is not the account's first waits for
the approval of another. -/
def ensureRegistered (profile : DeviceProfile) (material : RegistrationMaterial) :
    Act σ DeviceProfile := do
  if profile.registered then pure profile
  else
    let status ← api (.registerDevice profile.deviceId profile.deviceLabel material)
    let registered := if status = .pendingApproval then
        { profile with
          registered := true, keyPackagePublished := false, deviceStatus := .pendingApproval }
      else { profile with registered := true, deviceStatus := .active }
    store (.writeDeviceProfile registered)
    pure registered

/-- Look whether a waiting device has been approved. -/
def ensureApproved (profile : DeviceProfile) : Act σ DeviceProfile := do
  if profile.deviceStatus = .pendingApproval then
    let devices ← api .listDevices
    if (devices.find? fun d => d.1 = profile.deviceId).any (·.2 = .active) then
      store (.writeDeviceProfile { profile with deviceStatus := .active })
      pure { profile with deviceStatus := .active }
    else pure profile
  else pure profile

/-- Publish the first key package of an approved device. -/
def ensurePublished (profile : DeviceProfile) (state : σ) : Act σ (DeviceProfile × σ) := do
  if profile.deviceStatus ≠ .pendingApproval ∧ profile.keyPackagePublished = false then
    let generated ← core (.generateKeyPackage state)
    store (.write generated.1)
    let _ ← api (.publishKeyPackages profile.deviceId [generated.2])
    store (.writeDeviceProfile
      { profile with keyPackagePublished := true, deviceStatus := .active })
    pure ({ profile with keyPackagePublished := true, deviceStatus := .active }, generated.1)
  else pure (profile, state)

/-- `ensureReady`. -/
def ensureReady (accountId : Uuid) (deviceLabel : String) : Act σ (DeviceProfile × σ) := do
  let material ← ensureMaterial accountId deviceLabel
  let profile ← ensureRegistered material.1 material.2.2
  -- a device that has just been registered and has to wait is not looked up at once
  if material.1.registered = false ∧ profile.deviceStatus = .pendingApproval then
    pure (profile, material.2.1)
  else
    let approved ← ensureApproved profile
    ensurePublished approved material.2.1

/-- The key packages of a batch, one command after another. -/
def generateKeyPackages : ℕ → σ → List Bytes → Act σ (σ × List Bytes)
  | 0, state, keyPackages => pure (state, keyPackages)
  | needed + 1, state, keyPackages => do
    let generated ← core (.generateKeyPackage state)
    generateKeyPackages needed generated.1 (keyPackages ++ [generated.2])

/-- The batch of `doTopUp`: the state with the private parts is stored, then the key packages
are published. -/
def replenish (profile : DeviceProfile) (needed : ℕ) : Act σ ℕ := do
  match ← store .read with
  | none => raise (.deviceNotReady "E2EE 设备状态缺失")
  | some state =>
    let batch ← generateKeyPackages needed state []
    store (.write batch.1)
    api (.publishKeyPackages profile.deviceId batch.2)

/-- `doTopUp`: what it replenished, or why it failed, and the time before which it is not to
be tried again, which is kept in memory. -/
def topUpKeyPackages (retryAt : Option Timestamp) :
    Act σ (Except ClientError ℕ × Option Timestamp) := do
  match ← store .readDeviceProfile with
  | none => raise (.deviceNotReady "E2EE 设备未完成初始化，无法补充 KeyPackage")
  | some profile =>
    if profile.deviceStatus = .pendingApproval then
      raise (.deviceNotReady "E2EE 设备待批准，批准后才能补充 KeyPackage")
    else if profile.registered = false ∨ profile.keyPackagePublished = false then
      raise (.deviceNotReady "E2EE 设备未完成初始化，无法补充 KeyPackage")
    else
      let now ← remote .now
      if retryAt.any fun t => decide (now < t) then pure (.ok 0, retryAt)
      else
        let available ← api (.fetchKeyPackageInventory profile.deviceId)
        let needed := min (keyPackageTarget - available) keyPackageBatchLimit
        if keyPackageLowWatermark ≤ available ∨ needed = 0 then pure (.ok 0, none)
        else
          match ← (replenish profile needed).attempt with
          | .ok inserted => pure (.ok inserted, none)
          | .error err =>
            let later ← remote .now
            pure (.error err, some (later + replenishRetryAfterMs))

end RedcodeIm
