import RedcodeIm.Database.ControlStore

/-!
# The device store

The account and device half of `E2eeMlsStore` in `e2ee_mls_store.rs`, one stage for
each SQL statement.

* `registerDevice` — `register_device`.
* `approveDevice` — `approve_device`.
* `revokeDevice` — `revoke_device`.
* `listRoomMemberDevices` — `list_room_member_devices`.

A `SELECT … FOR UPDATE` waits while another transaction holds the row and then reads
its latest committed version.  An `UPDATE … FROM` over several rooms finds its rows in
one snapshot and then takes them one by one, checking its own columns again.
-/

namespace RedcodeIm

open ReadCommitted (Outcome)

/-! ## `register_device` -/

/-- `RegisterDeviceInput`. -/
structure RegisterDeviceInput where
  deviceId : Uuid
  deviceLabel : String
  rootPublicKey : Bytes
  rootFingerprint : Bytes
  credential : Bytes
  credentialFingerprint : Bytes
  approvalPublicKey : Bytes
  protocolVersion : ℕ
  clientPlatform : Option String
  clientVersion : Option String
  clientBuild : Option String
  deriving DecidableEq

/-- The identity row a registration inserts. -/
def RegisterDeviceInput.identity (input : RegisterDeviceInput) (userId : Uuid)
    (now : Timestamp) : AccountIdentity where
  userId := userId
  rootPublicKey := input.rootPublicKey
  rootFingerprint := input.rootFingerprint
  protocolVersion := input.protocolVersion
  createdAt := now
  updatedAt := now

/-- The device row a registration inserts: active for the first device of the account,
pending otherwise. -/
def RegisterDeviceInput.device (input : RegisterDeviceInput) (userId : Uuid)
    (firstDevice : Bool) (now : Timestamp) : Device where
  id := input.deviceId
  userId := userId
  deviceLabel := input.deviceLabel
  credential := input.credential
  credentialFingerprint := input.credentialFingerprint
  approvalPublicKey := some input.approvalPublicKey
  protocolVersion := input.protocolVersion
  status := if firstDevice then .active else .pendingApproval
  approvedByDeviceId := none
  approvedAt := if firstDevice then some now else none
  revokedAt := none
  createdAt := now
  updatedAt := now
  clientPlatform := input.clientPlatform
  clientVersion := input.clientVersion
  clientBuild := input.clientBuild

/-- `btrim(text) <> ''`. -/
def notBlank (text : String) : Bool := text.toList.any fun c => c ≠ ' '

/-- The `CHECK` constraints of `e2ee_account_identities`. -/
def AccountIdentity.checks (i : AccountIdentity) : Bool :=
  1 ≤ i.rootPublicKey.length && i.rootPublicKey.length ≤ 4096
    && 16 ≤ i.rootFingerprint.length && i.rootFingerprint.length ≤ 128
    && 0 < i.protocolVersion

/-- The `CHECK` constraints and column lengths of `e2ee_devices` a registration can
violate. -/
def Device.checks (d : Device) : Bool :=
  notBlank d.deviceLabel && d.deviceLabel.length ≤ 128
    && 1 ≤ d.credential.length && d.credential.length ≤ 65536
    && 16 ≤ d.credentialFingerprint.length && d.credentialFingerprint.length ≤ 128
    && 0 < d.protocolVersion
    && d.approvalPublicKey.all (fun k => k.length = 32)
    && d.clientPlatform.all (fun p => ["android", "ios", "h5", "desktop"].contains p)
    && d.clientVersion.all (fun t => notBlank t && t.length ≤ 64)
    && d.clientBuild.all (fun t => t.length ≤ 128)

/-- The unique constraints of `e2ee_devices` admit the row. -/
def Db.deviceUnique (db : Db) (d : Device) : Bool :=
  db.devices.rows.all fun x => x.id ≠ d.id
    && !(x.userId = d.userId && x.credentialFingerprint = d.credentialFingerprint)

/-- The stored identity agrees with the material of a registration. -/
def AccountIdentity.agrees (i : AccountIdentity) (input : RegisterDeviceInput) : Bool :=
  i.rootPublicKey = input.rootPublicKey && i.rootFingerprint = input.rootFingerprint
    && i.protocolVersion = input.protocolVersion

/-- The stored device agrees with the material of a registration. -/
def Device.agrees (d : Device) (input : RegisterDeviceInput) : Bool :=
  d.deviceLabel = input.deviceLabel && d.credential = input.credential
    && d.credentialFingerprint = input.credentialFingerprint
    && d.approvalPublicKey = some input.approvalPublicKey
    && d.protocolVersion = input.protocolVersion

/-- The statements of `register_device`. -/
inductive RegisterStage where
  | lockAccount
  | selectIdentity
  | insertIdentity
  | selectDevice (firstDevice : Bool)
  | selectRecord
  | insertDevice (firstDevice : Bool)
  | commit (device : Device)
  deriving DecidableEq

/-- `register_device`. -/
def registerDevice (userId : Uuid) (input : RegisterDeviceInput) (v : DbView) :
    RegisterStage → StatementOutcome RegisterStage
  | .lockAccount => .next .selectIdentity [(.account userId, .update)] [] 0
  | .selectIdentity =>
    match v.db.identities.get userId with
    | some i =>
      if i.agrees input then .next (.selectDevice false) [] [] 0
      else .fail (.messageRuntimeConflict "账号根身份与已登记身份不一致")
    | none => .next .insertIdentity [] [] 0
  | .insertIdentity =>
    let i := input.identity userId v.now
    if i.checks && v.db.identities.get userId = none then
      .next (.selectDevice true) [] [.insertIdentity i] 0
    else .fail .databaseError
  | .selectDevice firstDevice =>
    match v.db.devices.get input.deviceId with
    | some d =>
      if d.userId ≠ userId then .fail (.alreadyExists "device_id 已被其他账号使用")
      else if !d.agrees input then
        .fail (.messageRuntimeConflict "device_id 已存在但设备凭据不一致")
      else .next .selectRecord [] [] 0
    | none => .next (.insertDevice firstDevice) [] [] 0
  | .selectRecord =>
    match v.db.devices.get input.deviceId with
    | some d => .next (.commit d) [] [] 0
    | none => .fail .databaseError
  | .insertDevice firstDevice =>
    let d := input.device userId firstDevice v.now
    if d.checks && v.db.deviceUnique d then .next (.commit d) [] [.insertDevice d] 0
    else .fail .databaseError
  | .commit d => .commit (.device d)

/-- Everything a statement of a registration that does not end it can do. -/
inductive RegisterNext (userId : Uuid) (input : RegisterDeviceInput) (v : DbView) :
    RegisterStage → RegisterStage → Locks LockKey → List Write → Prop where
  | lockAccount :
      RegisterNext userId input v .lockAccount .selectIdentity [(.account userId, .update)] []
  | agree (i : AccountIdentity) (hi : v.db.identities.get userId = some i)
      (ha : i.agrees input = true) :
      RegisterNext userId input v .selectIdentity (.selectDevice false) [] []
  | first (hi : v.db.identities.get userId = none) :
      RegisterNext userId input v .selectIdentity .insertIdentity [] []
  | insertIdentity (hi : v.db.identities.get userId = none) :
      RegisterNext userId input v .insertIdentity (.selectDevice true) []
        [.insertIdentity (input.identity userId v.now)]
  | found (firstDevice : Bool) (d : Device) (hd : v.db.devices.get input.deviceId = some d)
      (hu : d.userId = userId) (ha : d.agrees input = true) :
      RegisterNext userId input v (.selectDevice firstDevice) .selectRecord [] []
  | fresh (firstDevice : Bool) (hd : v.db.devices.get input.deviceId = none) :
      RegisterNext userId input v (.selectDevice firstDevice) (.insertDevice firstDevice) [] []
  | selectRecord (d : Device) (hd : v.db.devices.get input.deviceId = some d) :
      RegisterNext userId input v .selectRecord (.commit d) [] []
  | insertDevice (firstDevice : Bool)
      (hu : v.db.deviceUnique (input.device userId firstDevice v.now) = true) :
      RegisterNext userId input v (.insertDevice firstDevice)
        (.commit (input.device userId firstDevice v.now)) []
        [.insertDevice (input.device userId firstDevice v.now)]

variable {userId : Uuid} {input : RegisterDeviceInput} {v : DbView} {ls : Locks LockKey}
  {ws : List Write}

theorem register_next {stage stage' : RegisterStage} {n : ℕ}
    (h : registerDevice userId input v stage = .next stage' ls ws n) :
    RegisterNext userId input v stage stage' ls ws ∧ n = 0 := by
  cases stage with
  | lockAccount =>
    cases h
    exact ⟨.lockAccount, rfl⟩
  | selectIdentity =>
    simp only [registerDevice] at h
    split at h
    · rename_i i hi
      split at h
      · rename_i ha
        cases h
        exact ⟨.agree i hi ha, rfl⟩
      · cases h
    · rename_i hi
      cases h
      exact ⟨.first hi, rfl⟩
  | insertIdentity =>
    simp only [registerDevice] at h
    split at h
    · rename_i hc
      rw [Bool.and_eq_true, decide_eq_true_eq] at hc
      cases h
      exact ⟨.insertIdentity hc.2, rfl⟩
    · cases h
  | selectDevice firstDevice =>
    simp only [registerDevice] at h
    split at h
    · rename_i d hd
      split at h
      · cases h
      · rename_i hu
        split at h
        · cases h
        · rename_i ha
          cases h
          exact ⟨.found firstDevice d hd (not_not.1 hu) (by simpa using ha), rfl⟩
    · rename_i hd
      cases h
      exact ⟨.fresh firstDevice hd, rfl⟩
  | selectRecord =>
    simp only [registerDevice] at h
    split at h
    · rename_i d hd
      cases h
      exact ⟨.selectRecord d hd, rfl⟩
    · cases h
  | insertDevice firstDevice =>
    simp only [registerDevice] at h
    split at h
    · rename_i hc
      rw [Bool.and_eq_true] at hc
      cases h
      exact ⟨.insertDevice firstDevice hc.2, rfl⟩
    · cases h
  | commit d => cases h

variable {out : Response}

theorem register_commit {stage : RegisterStage}
    (h : registerDevice userId input v stage = .commit out) :
    ∃ d, stage = .commit d ∧ out = .device d := by
  cases stage with
  | commit d =>
    cases h
    exact ⟨d, rfl, rfl⟩
  | lockAccount => cases h
  | selectIdentity | insertIdentity | selectDevice | selectRecord | insertDevice =>
    simp only [registerDevice] at h
    repeat' split at h
    all_goals cases h

/-! ## `approve_device` -/

/-- The device of the user under an id, as `WHERE id = $1 AND user_id = $2` finds it. -/
def Db.userDevice (db : Db) (userId deviceId : Uuid) : Option Device :=
  match db.devices.get deviceId with
  | some d => if d.userId = userId then some d else none
  | none => none

/-- The rooms of the user's current memberships that have an epoch row. -/
def Db.memberRooms (db : Db) (userId : Uuid) : List RoomEpoch :=
  db.epochs.rows.filter fun e => db.isMember e.roomId userId

/-- The statements of `approve_device`. -/
inductive ApproveStage where
  | lockApprover
  | lockTarget
  | selectRecord
  | updateDevice (target : Device)
  | selectRooms (device : Device)
  | updateRooms (device : Device) (rooms : List Uuid)
  | commit (device : Device)
  deriving DecidableEq

/-- The device row after its approval. -/
def Device.approve (d : Device) (approverDeviceId : Uuid) (now : Timestamp) : Device :=
  { d with
    status := .active, approvedByDeviceId := some approverDeviceId, approvedAt := some now,
    updatedAt := now }

/-- The room epoch once its members have to rekey. -/
def RoomEpoch.requireRekey (e : RoomEpoch) (now : Timestamp) : RoomEpoch :=
  { e with status := .rekeyRequired, updatedAt := now }

/-- `approve_device`. -/
def approveDevice (userId approverDeviceId targetDeviceId : Uuid) (v : DbView) :
    ApproveStage → StatementOutcome ApproveStage
  | .lockApprover =>
    if approverDeviceId = targetDeviceId then .fail (.validationError "设备不能批准自身")
    else
      match v.db.userDevice userId approverDeviceId with
      | some d =>
        if v.locked (.device approverDeviceId) .update then .wait
        else if d.status ≠ .active then .fail (.forbidden "只有可信设备可以批准新设备")
        else .next .lockTarget [(.device approverDeviceId, .update)] [] 0
      | none => .fail (.notFound "批准设备不存在")
  | .lockTarget =>
    match v.db.userDevice userId targetDeviceId with
    | some d =>
      if v.locked (.device targetDeviceId) .update then .wait
      else
        match d.status with
        | .active => .next .selectRecord [(.device targetDeviceId, .update)] [] 0
        | .pendingApproval => .next (.updateDevice d) [(.device targetDeviceId, .update)] [] 0
        | .revoked => .fail (.messageRuntimeConflict "目标设备不处于待批准状态")
    | none => .fail (.notFound "待批准设备不存在")
  | .selectRecord =>
    match v.db.userDevice userId targetDeviceId with
    | some d => .next (.commit d) [] [] 0
    | none => .fail .databaseError
  | .updateDevice d =>
    let device := d.approve approverDeviceId v.now
    .next (.selectRooms device) [] [.putDevice device] 0
  | .selectRooms device =>
    let rooms := (v.db.memberRooms userId).filter fun e => e.status = .active
    .next (.updateRooms device (rooms.map RoomEpoch.roomId)) [] [] 0
  | .updateRooms device [] => .next (.commit device) [] [] 0
  | .updateRooms device (roomId :: rooms) =>
    if v.locked (.roomEpoch roomId) .noKeyUpdate then .wait
    else
      match v.db.epochs.get roomId with
      | some e =>
        .next (.updateRooms device rooms) []
          (if e.status = .active then [.putEpoch (e.requireRekey v.now)] else []) 0
      | none => .next (.updateRooms device rooms) [] [] 0
  | .commit device => .commit (.device device)

/-- Everything a statement of an approval that does not end it can do. -/
inductive ApproveNext (userId approverDeviceId targetDeviceId : Uuid) (v : DbView) :
    ApproveStage → ApproveStage → Locks LockKey → List Write → Prop where
  | lockApprover (d : Device) (hne : approverDeviceId ≠ targetDeviceId)
      (hd : v.db.userDevice userId approverDeviceId = some d) (ha : d.status = .active) :
      ApproveNext userId approverDeviceId targetDeviceId v .lockApprover .lockTarget
        [(.device approverDeviceId, .update)] []
  | alreadyActive (d : Device) (hd : v.db.userDevice userId targetDeviceId = some d)
      (ha : d.status = .active) :
      ApproveNext userId approverDeviceId targetDeviceId v .lockTarget .selectRecord
        [(.device targetDeviceId, .update)] []
  | lockTarget (d : Device) (hd : v.db.userDevice userId targetDeviceId = some d)
      (ha : d.status = .pendingApproval) :
      ApproveNext userId approverDeviceId targetDeviceId v .lockTarget (.updateDevice d)
        [(.device targetDeviceId, .update)] []
  | selectRecord (d : Device) (hd : v.db.userDevice userId targetDeviceId = some d) :
      ApproveNext userId approverDeviceId targetDeviceId v .selectRecord (.commit d) [] []
  | updateDevice (d : Device) :
      ApproveNext userId approverDeviceId targetDeviceId v (.updateDevice d)
        (.selectRooms (d.approve approverDeviceId v.now)) []
        [.putDevice (d.approve approverDeviceId v.now)]
  | selectRooms (d : Device) :
      ApproveNext userId approverDeviceId targetDeviceId v (.selectRooms d)
        (.updateRooms d (((v.db.memberRooms userId).filter fun e => e.status = .active).map
          RoomEpoch.roomId)) [] []
  | rekey (d : Device) (roomId : Uuid) (rooms : List Uuid) (e : RoomEpoch)
      (he : v.db.epochs.get roomId = some e) (hs : e.status = .active) :
      ApproveNext userId approverDeviceId targetDeviceId v (.updateRooms d (roomId :: rooms))
        (.updateRooms d rooms) [] [.putEpoch (e.requireRekey v.now)]
  | skip (d : Device) (roomId : Uuid) (rooms : List Uuid)
      (he : ∀ e, v.db.epochs.get roomId = some e → e.status ≠ .active) :
      ApproveNext userId approverDeviceId targetDeviceId v (.updateRooms d (roomId :: rooms))
        (.updateRooms d rooms) [] []
  | done (d : Device) :
      ApproveNext userId approverDeviceId targetDeviceId v (.updateRooms d []) (.commit d) [] []

variable {approverDeviceId : Uuid}

theorem approve_next {targetDeviceId : Uuid} {stage stage' : ApproveStage} {n : ℕ}
    (h : approveDevice userId approverDeviceId targetDeviceId v stage = .next stage' ls ws n) :
    ApproveNext userId approverDeviceId targetDeviceId v stage stage' ls ws ∧ n = 0 := by
  cases stage with
  | lockApprover =>
    simp only [approveDevice] at h
    split at h
    · cases h
    · rename_i hne
      split at h
      · rename_i d hd
        split at h
        · cases h
        · split at h
          · cases h
          · rename_i ha
            cases h
            exact ⟨.lockApprover d hne hd (not_not.1 ha), rfl⟩
      · cases h
  | lockTarget =>
    simp only [approveDevice] at h
    split at h
    · rename_i d hd
      split at h
      · cases h
      · cases ha : d.status <;> simp only [ha] at h <;> cases h
        · exact ⟨.lockTarget d hd ha, rfl⟩
        · exact ⟨.alreadyActive d hd ha, rfl⟩
    · cases h
  | selectRecord =>
    simp only [approveDevice] at h
    split at h
    · rename_i d hd
      cases h
      exact ⟨.selectRecord d hd, rfl⟩
    · cases h
  | updateDevice d =>
    cases h
    exact ⟨.updateDevice d, rfl⟩
  | selectRooms d =>
    cases h
    exact ⟨.selectRooms d, rfl⟩
  | updateRooms d rooms =>
    cases rooms with
    | nil =>
      cases h
      exact ⟨.done d, rfl⟩
    | cons roomId rooms =>
      simp only [approveDevice] at h
      split at h
      · cases h
      · split at h
        · rename_i e he
          split at h
          · rename_i hs
            cases h
            exact ⟨.rekey d roomId rooms e he hs, rfl⟩
          · rename_i hs
            cases h
            refine ⟨.skip d roomId rooms fun e' he' => ?_, rfl⟩
            rw [he, Option.some.injEq] at he'
            exact he' ▸ hs
        · rename_i he
          cases h
          exact ⟨.skip d roomId rooms fun e' he' => by simp [he] at he', rfl⟩
  | commit d => cases h

theorem approve_commit {targetDeviceId : Uuid} {stage : ApproveStage}
    (h : approveDevice userId approverDeviceId targetDeviceId v stage = .commit out) :
    ∃ d, stage = .commit d ∧ out = .device d := by
  cases stage with
  | commit d =>
    cases h
    exact ⟨d, rfl, rfl⟩
  | updateDevice | selectRooms => cases h
  | updateRooms d rooms =>
    cases rooms with
    | nil => cases h
    | cons roomId rooms =>
      simp only [approveDevice] at h
      repeat' split at h
      all_goals cases h
  | lockApprover | lockTarget | selectRecord =>
    simp only [approveDevice] at h
    repeat' split at h
    all_goals cases h

/-! ## `revoke_device` -/

/-- The statements of `revoke_device`. -/
inductive RevokeStage where
  | lockDevice
  | selectRecord
  | updateDevice (device : Device)
  | selectRooms (device : Device)
  | updateRooms (device : Device) (rooms : List Uuid)
  | commit (device : Device)
  deriving DecidableEq

/-- The device row after its revocation. -/
def Device.revoke (d : Device) (now : Timestamp) : Device :=
  { d with status := .revoked, revokedAt := some (d.revokedAt.getD now), updatedAt := now }

/-- `revoke_device`. -/
def revokeDevice (userId deviceId : Uuid) (v : DbView) : RevokeStage → StatementOutcome RevokeStage
  | .lockDevice =>
    match v.db.userDevice userId deviceId with
    | some d =>
      if v.locked (.device deviceId) .update then .wait
      else
        match d.status with
        | .revoked => .next .selectRecord [(.device deviceId, .update)] [] 0
        | .pendingApproval => .fail (.messageRuntimeConflict "待批准设备无需撤销")
        | .active => .next (.updateDevice d) [(.device deviceId, .update)] [] 0
    | none => .fail (.notFound "可撤销设备不存在")
  | .selectRecord =>
    match v.db.userDevice userId deviceId with
    | some d => .next (.commit d) [] [] 0
    | none => .fail .databaseError
  | .updateDevice d =>
    let device := d.revoke v.now
    .next (.selectRooms device) [] [.putDevice device] 0
  | .selectRooms device =>
    .next (.updateRooms device ((v.db.memberRooms userId).map RoomEpoch.roomId)) [] [] 0
  | .updateRooms device [] => .next (.commit device) [] [] 0
  | .updateRooms device (roomId :: rooms) =>
    match v.db.epochs.get roomId with
    | some e => .next (.updateRooms device rooms) [] [.putEpoch (e.requireRekey v.now)] 0
    | none => .next (.updateRooms device rooms) [] [] 0
  | .commit device => .commit (.device device)

/-- Everything a statement of a revocation that does not end it can do. -/
inductive RevokeNext (userId deviceId : Uuid) (v : DbView) :
    RevokeStage → RevokeStage → Locks LockKey → List Write → Prop where
  | alreadyRevoked (d : Device) (hd : v.db.userDevice userId deviceId = some d)
      (hs : d.status = .revoked) :
      RevokeNext userId deviceId v .lockDevice .selectRecord [(.device deviceId, .update)] []
  | lockDevice (d : Device) (hd : v.db.userDevice userId deviceId = some d)
      (hs : d.status = .active) :
      RevokeNext userId deviceId v .lockDevice (.updateDevice d) [(.device deviceId, .update)] []
  | selectRecord (d : Device) (hd : v.db.userDevice userId deviceId = some d) :
      RevokeNext userId deviceId v .selectRecord (.commit d) [] []
  | updateDevice (d : Device) :
      RevokeNext userId deviceId v (.updateDevice d) (.selectRooms (d.revoke v.now)) []
        [.putDevice (d.revoke v.now)]
  | selectRooms (d : Device) :
      RevokeNext userId deviceId v (.selectRooms d)
        (.updateRooms d ((v.db.memberRooms userId).map RoomEpoch.roomId)) [] []
  | rekey (d : Device) (roomId : Uuid) (rooms : List Uuid) (e : RoomEpoch)
      (he : v.db.epochs.get roomId = some e) :
      RevokeNext userId deviceId v (.updateRooms d (roomId :: rooms)) (.updateRooms d rooms) []
        [.putEpoch (e.requireRekey v.now)]
  | skip (d : Device) (roomId : Uuid) (rooms : List Uuid)
      (he : v.db.epochs.get roomId = none) :
      RevokeNext userId deviceId v (.updateRooms d (roomId :: rooms)) (.updateRooms d rooms) [] []
  | done (d : Device) : RevokeNext userId deviceId v (.updateRooms d []) (.commit d) [] []

theorem revoke_next {deviceId : Uuid} {stage stage' : RevokeStage} {n : ℕ}
    (h : revokeDevice userId deviceId v stage = .next stage' ls ws n) :
    RevokeNext userId deviceId v stage stage' ls ws ∧ n = 0 := by
  cases stage with
  | lockDevice =>
    simp only [revokeDevice] at h
    split at h
    · rename_i d hd
      split at h
      · cases h
      · cases hs : d.status <;> simp only [hs] at h <;> cases h
        · exact ⟨.lockDevice d hd hs, rfl⟩
        · exact ⟨.alreadyRevoked d hd hs, rfl⟩
    · cases h
  | selectRecord =>
    simp only [revokeDevice] at h
    split at h
    · rename_i d hd
      cases h
      exact ⟨.selectRecord d hd, rfl⟩
    · cases h
  | updateDevice d =>
    cases h
    exact ⟨.updateDevice d, rfl⟩
  | selectRooms d =>
    cases h
    exact ⟨.selectRooms d, rfl⟩
  | updateRooms d rooms =>
    cases rooms with
    | nil =>
      cases h
      exact ⟨.done d, rfl⟩
    | cons roomId rooms =>
      simp only [revokeDevice] at h
      split at h
      · rename_i e he
        cases h
        exact ⟨.rekey d roomId rooms e he, rfl⟩
      · rename_i he
        cases h
        exact ⟨.skip d roomId rooms he, rfl⟩
  | commit d => cases h

theorem revoke_commit {deviceId : Uuid} {stage : RevokeStage}
    (h : revokeDevice userId deviceId v stage = .commit out) :
    ∃ d, stage = .commit d ∧ out = .device d := by
  cases stage with
  | commit d =>
    cases h
    exact ⟨d, rfl, rfl⟩
  | updateDevice | selectRooms => cases h
  | updateRooms d rooms =>
    cases rooms with
    | nil => cases h
    | cons roomId rooms =>
      simp only [revokeDevice] at h
      repeat' split at h
      all_goals cases h
  | lockDevice | selectRecord =>
    simp only [revokeDevice] at h
    repeat' split at h
    all_goals cases h

/-! ## `list_room_member_devices` -/

/-- The active devices of a user, oldest first. -/
def Db.activeDevices (db : Db) (userId : Uuid) : List Device :=
  (db.devices.rows.filter fun d => d.userId = userId && d.status = .active).insertionSort
    fun a b => a.createdAt < b.createdAt ∨ a.createdAt = b.createdAt ∧ a.id ≤ b.id

/-- The current members of the room, by user. -/
def Db.roomMembers (db : Db) (roomId : Uuid) : List Uuid :=
  ((db.members.rows.filter fun m => m.roomId = roomId && m.deletedAt = none).map
    RoomMember.userId).insertionSort (· ≤ ·)

/-- `list_room_member_devices`: one read.  A member without active devices is listed with
none. -/
def listRoomMemberDevices (roomId viewerUserId : Uuid) (v : DbView) (_ : Unit) :
    StatementOutcome Unit :=
  if v.db.isMember roomId viewerUserId then
    .commit (.memberDevices ((v.db.roomMembers roomId).flatMap fun userId =>
      match v.db.activeDevices userId with
      | [] =>
        [{ userId := userId, deviceId := none, protocolVersion := none,
           credentialFingerprint := none }]
      | ds => ds.map fun d =>
        { userId := userId, deviceId := some d.id, protocolVersion := some d.protocolVersion,
          credentialFingerprint := some d.credentialFingerprint }))
  else .commit (.memberDevices [])

end RedcodeIm
