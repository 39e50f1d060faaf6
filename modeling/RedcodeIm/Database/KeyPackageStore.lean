import RedcodeIm.Database.MlsStore

/-!
# The key-package store

The KeyPackage half of `E2eeMlsStore` in `e2ee_mls_store.rs`, one stage for each SQL
statement.

* `publishKeyPackages` — `publish_key_packages`.
* `takeKeyPackage` — `take_key_package`.
* `takeKeyPackageForRoom` — `take_key_package_for_room`.

A claim finds its candidates in one snapshot and takes the first it can lock,
passing over the rows that are locked (`SKIP LOCKED`) or no longer available.
-/

namespace RedcodeIm

open ReadCommitted (Outcome)

/-- `MAX_AVAILABLE_KEY_PACKAGES_PER_DEVICE`. -/
def maxAvailableKeyPackagesPerDevice : ℕ := 500

/-- `NewKeyPackage`. -/
structure NewKeyPackage where
  id : Uuid
  packageRef : Bytes
  keyPackage : Bytes
  protocolVersion : ℕ
  expiresAt : Timestamp
  deriving DecidableEq

/-- The row a publication inserts. -/
def NewKeyPackage.row (p : NewKeyPackage) (deviceId : Uuid) (now : Timestamp) : KeyPackage where
  id := p.id
  deviceId := deviceId
  packageRef := p.packageRef
  keyPackage := p.keyPackage
  protocolVersion := p.protocolVersion
  expiresAt := p.expiresAt
  consumedAt := none
  consumedByDeviceId := none
  createdAt := now

/-- The `CHECK` constraints of `e2ee_key_packages`. -/
def KeyPackage.checks (p : KeyPackage) : Bool :=
  16 ≤ p.packageRef.length && p.packageRef.length ≤ 128
    && 1 ≤ p.keyPackage.length && p.keyPackage.length ≤ 1048576
    && 0 < p.protocolVersion && p.createdAt < p.expiresAt
    && p.consumedAt.isSome = p.consumedByDeviceId.isSome

/-- Neither consumed nor expired. -/
def KeyPackage.available (p : KeyPackage) (now : Timestamp) : Bool :=
  p.consumedAt = none && now < p.expiresAt

/-- The available packages of a device. -/
def Db.availablePackages (db : Db) (deviceId : Uuid) (now : Timestamp) : List KeyPackage :=
  db.keyPackages.rows.filter fun p => p.deviceId = deviceId && p.available now

/-! ## `publish_key_packages` -/

/-- The statements of `publish_key_packages`. -/
inductive PublishStage where
  | lockDevice
  | insert (packages : List NewKeyPackage) (inserted : ℕ)
  | count (inserted : ℕ)
  | commit (inserted : ℕ)
  deriving DecidableEq

/-- `publish_key_packages`. -/
def publishKeyPackages (userId deviceId : Uuid) (packages : List NewKeyPackage) (v : DbView) :
    PublishStage → StatementOutcome PublishStage
  | .lockDevice =>
    match v.db.userDevice userId deviceId with
    | some d =>
      if v.locked (.device deviceId) .share then .wait
      else if d.status ≠ .active then .fail (.forbidden "只有可信设备可以发布 KeyPackage")
      else if packages.any fun p => p.protocolVersion ≠ d.protocolVersion then
        .fail (.validationError "KeyPackage 协议版本与设备不一致")
      else .next (.insert packages 0) [(.device deviceId, .share)] [] 0
    | none => .fail (.forbidden "发布设备不存在或不属于当前账号")
  | .insert [] inserted => .next (.count inserted) [] [] 0
  | .insert (p :: ps) inserted =>
    let row := p.row deviceId v.now
    if !row.checks then .fail .databaseError
    else if v.db.keyPackages.rows.any fun x => x.packageRef = row.packageRef then
      .next (.insert ps inserted) [] [] 0
    else if (v.db.keyPackages.get row.id).isSome then .fail .databaseError
    else .next (.insert ps (inserted + 1)) [] [.insertKeyPackage row] 0
  | .count inserted =>
    if maxAvailableKeyPackagesPerDevice < (v.db.availablePackages deviceId v.now).length then
      .fail (.rateLimitExceeded
        s!"每台设备最多保留 {maxAvailableKeyPackagesPerDevice} 个可用 KeyPackage")
    else .next (.commit inserted) [] [] 0
  | .commit inserted => .commit (.published inserted)

/-- Everything a statement of a publication that does not end it can do. -/
inductive PublishNext (userId deviceId : Uuid) (packages : List NewKeyPackage) (v : DbView) :
    PublishStage → PublishStage → Locks LockKey → List Write → Prop where
  | lockDevice (d : Device) (hd : v.db.userDevice userId deviceId = some d)
      (hs : d.status = .active) :
      PublishNext userId deviceId packages v .lockDevice (.insert packages 0)
        [(.device deviceId, .share)] []
  | skip (p : NewKeyPackage) (ps : List NewKeyPackage) (inserted : ℕ)
      (hc : (p.row deviceId v.now).checks = true)
      (hr : (v.db.keyPackages.rows.any fun x => x.packageRef = p.packageRef) = true) :
      PublishNext userId deviceId packages v (.insert (p :: ps) inserted) (.insert ps inserted)
        [] []
  | insert (p : NewKeyPackage) (ps : List NewKeyPackage) (inserted : ℕ)
      (hc : (p.row deviceId v.now).checks = true)
      (hr : (v.db.keyPackages.rows.any fun x => x.packageRef = p.packageRef) = false)
      (hi : v.db.keyPackages.get p.id = none) :
      PublishNext userId deviceId packages v (.insert (p :: ps) inserted)
        (.insert ps (inserted + 1)) [] [.insertKeyPackage (p.row deviceId v.now)]
  | done (inserted : ℕ) :
      PublishNext userId deviceId packages v (.insert [] inserted) (.count inserted) [] []
  | count (inserted : ℕ)
      (hc : (v.db.availablePackages deviceId v.now).length ≤ maxAvailableKeyPackagesPerDevice) :
      PublishNext userId deviceId packages v (.count inserted) (.commit inserted) [] []

variable {packages : List NewKeyPackage} {v : DbView}

theorem publish_next {userId deviceId : Uuid} {stage stage' : PublishStage} {ls : Locks LockKey}
    {ws : List Write} {n : ℕ}
    (h : publishKeyPackages userId deviceId packages v stage = .next stage' ls ws n) :
    PublishNext userId deviceId packages v stage stage' ls ws ∧ n = 0 := by
  cases stage with
  | lockDevice =>
    simp only [publishKeyPackages] at h
    split at h
    · rename_i d hd
      split at h
      · cases h
      · split at h
        · cases h
        · rename_i hs
          split at h
          · cases h
          · cases h
            exact ⟨.lockDevice d hd (not_not.1 hs), rfl⟩
    · cases h
  | insert ps inserted =>
    cases ps with
    | nil =>
      cases h
      exact ⟨.done inserted, rfl⟩
    | cons p ps =>
      simp only [publishKeyPackages] at h
      split at h
      · cases h
      · rename_i hc
        rw [Bool.not_eq_true', Bool.not_eq_false] at hc
        split at h
        · rename_i hr
          cases h
          exact ⟨.skip p ps inserted hc hr, rfl⟩
        · rename_i hr
          split at h
          · cases h
          · rename_i hi
            cases h
            exact ⟨.insert p ps inserted hc (Bool.not_eq_true _ ▸ hr)
              (Option.not_isSome_iff_eq_none.1 hi), rfl⟩
  | count inserted =>
    simp only [publishKeyPackages] at h
    split at h
    · cases h
    · rename_i hc
      cases h
      exact ⟨.count inserted (Nat.le_of_not_lt hc), rfl⟩
  | commit inserted => cases h

theorem publish_commit {userId deviceId : Uuid} {stage : PublishStage} {out : Response}
    (h : publishKeyPackages userId deviceId packages v stage = .commit out) :
    ∃ n, stage = .commit n ∧ out = .published n := by
  cases stage with
  | commit n =>
    cases h
    exact ⟨n, rfl, rfl⟩
  | insert ps inserted =>
    cases ps with
    | nil => cases h
    | cons p ps =>
      simp only [publishKeyPackages] at h
      repeat' split at h
      all_goals cases h
  | lockDevice | count =>
    simp only [publishKeyPackages] at h
    repeat' split at h
    all_goals cases h

/-! ## `take_key_package` and `take_key_package_for_room` -/

/-- The statements of a claim. -/
inductive TakeStage where
  | select
  | tryLock (candidates : List KeyPackage)
  | update (package : KeyPackage)
  | commit (claimed : Option KeyPackage)
  deriving DecidableEq

/-- The available packages of the target device, oldest first. -/
def Db.claimCandidates (db : Db) (targetDeviceId : Uuid) (now : Timestamp) : List KeyPackage :=
  (db.availablePackages targetDeviceId now).insertionSort fun a b =>
    a.createdAt < b.createdAt ∨ a.createdAt = b.createdAt ∧ a.id ≤ b.id

/-- The package row after its claim. -/
def KeyPackage.consume (p : KeyPackage) (consumerDeviceId : Uuid) (now : Timestamp) : KeyPackage :=
  { p with consumedAt := some now, consumedByDeviceId := some consumerDeviceId }

/-- The conditions of `take_key_package` on the devices. -/
def Db.mayTake (db : Db) (consumerUserId targetDeviceId consumerDeviceId : Uuid) : Bool :=
  (db.devices.get targetDeviceId).any (fun d => d.status = .active)
    && db.deviceActive consumerDeviceId consumerUserId

/-- The conditions of `take_key_package_for_room` on devices and members. -/
def Db.mayTakeForRoom (db : Db) (roomId consumerUserId targetDeviceId consumerDeviceId : Uuid) :
    Bool :=
  db.mayTake consumerUserId targetDeviceId consumerDeviceId
    && db.isMember roomId consumerUserId
    && (db.devices.get targetDeviceId).any (fun d => db.isMember roomId d.userId)

/-- The `UPDATE … WHERE id = (SELECT … FOR UPDATE OF package SKIP LOCKED) RETURNING …` of
both claims, `allowed` being the conditions on the other tables. -/
def takeStatement (allowed : Db → Bool) (targetDeviceId consumerDeviceId : Uuid) (v : DbView) :
    TakeStage → StatementOutcome TakeStage
  | .select =>
    .next (.tryLock (if allowed v.db then v.db.claimCandidates targetDeviceId v.now else []))
      [] [] 0
  | .tryLock [] => .next (.commit none) [] [] 0
  | .tryLock (p :: ps) =>
    if v.locked (.keyPackage p.id) .update then .next (.tryLock ps) [] [] 0
    else
      match v.db.keyPackages.get p.id with
      | some row =>
        if row.available v.now then .next (.update row) [(.keyPackage p.id, .update)] [] 0
        else .next (.tryLock ps) [] [] 0
      | none => .next (.tryLock ps) [] [] 0
  | .update row =>
    let claimed := row.consume consumerDeviceId v.now
    .next (.commit (some claimed)) (deviceKeyShares [consumerDeviceId]) [.putKeyPackage claimed] 0
  | .commit claimed => .commit (.claimed claimed)

/-- Everything a statement of a claim that does not end it can do. -/
inductive TakeNext (allowed : Db → Bool) (targetDeviceId consumerDeviceId : Uuid) (v : DbView) :
    TakeStage → TakeStage → Locks LockKey → List Write → Prop where
  | select (ha : allowed v.db = true) :
      TakeNext allowed targetDeviceId consumerDeviceId v .select
        (.tryLock (v.db.claimCandidates targetDeviceId v.now)) [] []
  | refuse (ha : allowed v.db = false) :
      TakeNext allowed targetDeviceId consumerDeviceId v .select (.tryLock []) [] []
  | exhausted :
      TakeNext allowed targetDeviceId consumerDeviceId v (.tryLock []) (.commit none) [] []
  | skip (p : KeyPackage) (ps : List KeyPackage) :
      TakeNext allowed targetDeviceId consumerDeviceId v (.tryLock (p :: ps)) (.tryLock ps) [] []
  | lock (p : KeyPackage) (ps : List KeyPackage) (row : KeyPackage)
      (hp : v.db.keyPackages.get p.id = some row) (ha : row.available v.now = true) :
      TakeNext allowed targetDeviceId consumerDeviceId v (.tryLock (p :: ps)) (.update row)
        [(.keyPackage p.id, .update)] []
  | update (row : KeyPackage) :
      TakeNext allowed targetDeviceId consumerDeviceId v (.update row)
        (.commit (some (row.consume consumerDeviceId v.now)))
        (deviceKeyShares [consumerDeviceId])
        [.putKeyPackage (row.consume consumerDeviceId v.now)]

variable {consumerDeviceId : Uuid}

theorem take_next {allowed : Db → Bool} {targetDeviceId : Uuid} {stage stage' : TakeStage}
    {ls : Locks LockKey} {ws : List Write} {n : ℕ}
    (h : takeStatement allowed targetDeviceId consumerDeviceId v stage = .next stage' ls ws n) :
    TakeNext allowed targetDeviceId consumerDeviceId v stage stage' ls ws ∧ n = 0 := by
  cases stage with
  | select =>
    cases ha : allowed v.db with
    | true =>
      simp only [takeStatement, ha, if_true] at h
      cases h
      exact ⟨.select ha, rfl⟩
    | false =>
      simp only [takeStatement, ha, Bool.false_eq_true, if_false] at h
      cases h
      exact ⟨.refuse ha, rfl⟩
  | tryLock ps =>
    cases ps with
    | nil =>
      cases h
      exact ⟨.exhausted, rfl⟩
    | cons p ps =>
      simp only [takeStatement] at h
      split at h
      · cases h
        exact ⟨.skip p ps, rfl⟩
      · split at h
        · rename_i row hp
          split at h
          · rename_i ha
            cases h
            exact ⟨.lock p ps row hp ha, rfl⟩
          · cases h
            exact ⟨.skip p ps, rfl⟩
        · cases h
          exact ⟨.skip p ps, rfl⟩
  | update row =>
    cases h
    exact ⟨.update row, rfl⟩
  | commit claimed => cases h

theorem take_commit {allowed : Db → Bool} {targetDeviceId : Uuid} {stage : TakeStage}
    {out : Response}
    (h : takeStatement allowed targetDeviceId consumerDeviceId v stage = .commit out) :
    ∃ claimed, stage = .commit claimed ∧ out = .claimed claimed := by
  cases stage with
  | commit claimed =>
    cases h
    exact ⟨claimed, rfl, rfl⟩
  | select | update => cases h
  | tryLock ps =>
    cases ps with
    | nil => cases h
    | cons p ps =>
      simp only [takeStatement] at h
      repeat' split at h
      all_goals cases h

/-- `take_key_package`. -/
def takeKeyPackage (consumerUserId targetDeviceId consumerDeviceId : Uuid) (v : DbView) :
    TakeStage → StatementOutcome TakeStage :=
  takeStatement (fun db => db.mayTake consumerUserId targetDeviceId consumerDeviceId)
    targetDeviceId consumerDeviceId v

/-- `take_key_package_for_room`. -/
def takeKeyPackageForRoom (roomId consumerUserId targetDeviceId consumerDeviceId : Uuid)
    (v : DbView) : TakeStage → StatementOutcome TakeStage :=
  takeStatement (fun db => db.mayTakeForRoom roomId consumerUserId targetDeviceId consumerDeviceId)
    targetDeviceId consumerDeviceId v

end RedcodeIm
