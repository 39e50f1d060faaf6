import RedcodeIm.Database.System

/-!
# What a commit does to the devices of an account

A registration works under the advisory lock of its account, an approval under the row
locks of both devices, a revocation under that of its device.  Each of them therefore
commits against the rows it has read, and the effect of every commit on the tables of
devices and identities is one of the moves of `TrustStep`.

* `TrustStep` — the moves.
* `DeviceTrust.Assertion` — what holds of a call at each of its stages.
* `DeviceTrust.outline` — no call disturbs another.
* `trustStep_of_commit` — every commit is a move, and a repeated call is none.
-/

namespace RedcodeIm

open ReadCommitted List

/-! ## The moves -/

/-- The device under an id has a status. -/
def Db.deviceIs (db : Db) (userId deviceId : Uuid) (status : DeviceStatus) : Prop :=
  ∃ d, db.devices.get deviceId = some d ∧ d.userId = userId ∧ d.status = status

/-- The effect of a commit on identities and devices. -/
inductive TrustStep (db db' : Db) : Prop where
  /-- Neither table changes. -/
  | idle (hi : db'.identities = db.identities) (hd : db'.devices = db.devices)
  /-- The first device of an account is registered, and its identity with it. -/
  | first (i : AccountIdentity) (d : Device) (hi : db.identities.get i.userId = none)
      (hu : d.userId = i.userId) (hd : db.devices.get d.id = none) (hs : d.status = .active)
      (ha : d.approvedByDeviceId = none) (hi' : db'.identities = db.identities.insert i)
      (hd' : db'.devices = db.devices.insert d)
  /-- A further device is registered. -/
  | pending (i : AccountIdentity) (d : Device) (hi : db.identities.get d.userId = some i)
      (hd : db.devices.get d.id = none) (hs : d.status = .pendingApproval)
      (ha : d.approvedByDeviceId = none) (hi' : db'.identities = db.identities)
      (hd' : db'.devices = db.devices.insert d)
  /-- A pending device is approved by another, active device of the account. -/
  | approve (d : Device) (approver : Uuid) (now : Timestamp) (hne : approver ≠ d.id)
      (ha : db.deviceIs d.userId approver .active) (hd : db.devices.get d.id = some d)
      (hs : d.status = .pendingApproval) (hi' : db'.identities = db.identities)
      (hd' : db'.devices = db.devices.put (d.approve approver now))
  /-- An active device is revoked. -/
  | revoke (d : Device) (now : Timestamp) (hd : db.devices.get d.id = some d)
      (hs : d.status = .active) (hi' : db'.identities = db.identities)
      (hd' : db'.devices = db.devices.put (d.revoke now))

/-! ## Writes that touch neither table -/

/-- No write touches identities or devices. -/
def TrustFree (ws : List Write) : Prop :=
  ∀ w ∈ ws, w.table ≠ .identities ∧ w.table ≠ .devices

theorem TrustFree.applyAll {ws : List Write} (h : TrustFree ws) (db : Db) :
    (e2eeBackend.applyAll db ws).identities = db.identities ∧
      (e2eeBackend.applyAll db ws).devices = db.devices := by
  induction ws generalizing db with
  | nil => exact ⟨rfl, rfl⟩
  | cons w ws ih =>
    have hw := h w mem_cons_self
    have hrest := ih (fun w' hw' => h w' (mem_cons_of_mem _ hw')) (e2eeBackend.apply db w)
    rw [Program.applyAll_cons, hrest.1, hrest.2]
    cases w <;> first | exact ⟨rfl, rfl⟩ | simp [Write.table] at hw

theorem TrustFree.append {ws ws' : List Write} (h : TrustFree ws) (h' : TrustFree ws') :
    TrustFree (ws ++ ws') := by
  intro x hx
  rcases mem_append.1 hx with hx | hx
  · exact h x hx
  · exact h' x hx

/-- The row of a device is guarded by its id. -/
theorem guarded_device (id : Uuid) :
    Program.Guarded e2eeBackend (fun db : Db => db.devices.get id) (.device id) := by
  intro db w hw
  have hne : ∀ k m, (k, m) ∈ w.guards → k ≠ .device id := fun k m hk => hw (k, m) hk
  cases w with
  | insertDevice d =>
    refine Table.get_insert_ne fun he => ?_
    exact hne (.device d.id) .update (by simp [Write.guards]) (by rw [he])
  | putDevice d =>
    refine Table.get_put_ne fun he => ?_
    exact hne (.device d.id) .noKeyUpdate (by simp [Write.guards]) (by rw [he])
  | _ => rfl

theorem userDevice_eq_some {db : Db} {userId deviceId : Uuid} {d : Device}
    (h : db.userDevice userId deviceId = some d) :
    db.devices.get deviceId = some d ∧ d.userId = userId ∧ d.id = deviceId := by
  unfold Db.userDevice at h
  split at h
  · rename_i d' hd'
    split at h
    · rename_i hu
      cases h
      exact ⟨hd', hu, Table.key_of_get hd'⟩
    · cases h
  · cases h

/-- The calls that write devices. -/
def Request.isTrust : Request → Bool
  | .registerDevice .. | .approveDevice .. | .revokeDevice .. => true
  | _ => false

theorem Request.tables_of_not_trust {r : Request} (h : r.isTrust = false) :
    .identities ∉ r.tables ∧ .devices ∉ r.tables := by
  cases r <;> simp_all [isTrust, tables]

namespace DeviceTrust

/-! ## The outline -/

section

variable (w : Backend.World) (now : Timestamp) (locks : Locks LockKey) (writes : List Write)

/-- A registration past its identity: either it inserted the identity, or it found one. -/
structure Opened (userId : Uuid) (input : RegisterDeviceInput) (firstDevice : Bool)
    (opening : List Write) : Prop where
  lock : (.account userId, .update) ∈ locks
  first : firstDevice = true → opening = [.insertIdentity (input.identity userId now)] ∧
    w.db.identities.get userId = none
  later : firstDevice = false → opening = [] ∧ ∃ i, w.db.identities.get userId = some i

/-- A registration that has inserted its device. -/
structure Registered (userId : Uuid) (input : RegisterDeviceInput) (d : Device) : Prop where
  opened : ∃ firstDevice opening, Opened w now locks userId input firstDevice opening ∧
    d = input.device userId firstDevice now ∧ writes = opening ++ [.insertDevice d]
  absent : w.db.devices.get d.id = none
  lockDevice : (.device d.id, .update) ∈ locks

/-- What holds of a registration at each of its stages. -/
def RegisterAt (userId : Uuid) (input : RegisterDeviceInput) : RegisterStage → Prop
  | .lockAccount => writes = []
  | .selectIdentity | .insertIdentity => writes = [] ∧ (.account userId, .update) ∈ locks
  | .selectDevice firstDevice | .insertDevice firstDevice =>
    Opened w now locks userId input firstDevice writes
  | .selectRecord => writes = []
  | .commit d => writes = [] ∨ Registered w now locks writes userId input d ∧ d.id = input.deviceId

/-- An approval holds both devices: the approver is active, the target pending. -/
structure Approving (userId approver target : Uuid) (d : Device) : Prop where
  ne : approver ≠ target
  lockApprover : (.device approver, .update) ∈ locks
  lockTarget : (.device target, .update) ∈ locks
  active : w.db.deviceIs userId approver .active
  row : w.db.userDevice userId target = some d
  pending : d.status = .pendingApproval

/-- An approval that has written its target, and nothing else on devices. -/
def Approved (userId approver target : Uuid) : Prop :=
  ∃ d rest, Approving w locks userId approver target d ∧ TrustFree rest ∧
    writes = .putDevice (d.approve approver now) :: rest

/-- What holds of an approval at each of its stages. -/
def ApproveAt (userId approver target : Uuid) : ApproveStage → Prop
  | .lockApprover | .selectRecord => writes = []
  | .lockTarget => writes = [] ∧ approver ≠ target ∧ (.device approver, .update) ∈ locks ∧
    w.db.deviceIs userId approver .active
  | .updateDevice d => writes = [] ∧ Approving w locks userId approver target d
  | .selectRooms _ | .updateRooms _ _ => Approved w now locks writes userId approver target
  | .commit _ => writes = [] ∨ Approved w now locks writes userId approver target

/-- A revocation holds its device, which is active. -/
structure Revoking (userId deviceId : Uuid) (d : Device) : Prop where
  lock : (.device deviceId, .update) ∈ locks
  row : w.db.userDevice userId deviceId = some d
  active : d.status = .active

/-- A revocation that has written its device, and nothing else on devices. -/
def Revoked (userId deviceId : Uuid) : Prop :=
  ∃ d rest, Revoking w locks userId deviceId d ∧ TrustFree rest ∧
    writes = .putDevice (d.revoke now) :: rest

/-- What holds of a revocation at each of its stages. -/
def RevokeAt (userId deviceId : Uuid) : RevokeStage → Prop
  | .lockDevice | .selectRecord => writes = []
  | .updateDevice d => writes = [] ∧ Revoking w locks userId deviceId d
  | .selectRooms _ | .updateRooms _ _ => Revoked w now locks writes userId deviceId
  | .commit _ => writes = [] ∨ Revoked w now locks writes userId deviceId

end

/-- What holds of a call at a stage. -/
def At (w : Backend.World) (now : Timestamp) (locks : Locks LockKey) (writes : List Write) :
    (r : Request) → r.Stage → Prop
  | .registerDevice userId input, stage => RegisterAt w now locks writes userId input stage
  | .approveDevice userId approver target, stage =>
    ApproveAt w now locks writes userId approver target stage
  | .revokeDevice userId deviceId, stage => RevokeAt w now locks writes userId deviceId stage
  | _, _ => True

/-- The assertion of a call in flight. -/
def Assertion (w : Backend.World) (tx : Backend.Tx) : Prop :=
  At w tx.now tx.locks tx.writes tx.req tx.loc

/-- Every device belongs to an account with an identity. -/
def Owned (w : Backend.World) : Prop :=
  ∀ d ∈ w.db.devices.rows, ∃ i, w.db.identities.get d.userId = some i

/-! ### Non-interference -/

variable {w : Backend.World} {now : Timestamp} {locks : Locks LockKey} {writes : List Write}
  {userId : Uuid} {input : RegisterDeviceInput}

/-- A registration that has inserted an identity holds the advisory lock of its account. -/
theorem RegisterAt.lock {stage : RegisterStage}
    (h : RegisterAt w now locks writes userId input stage) {i : AccountIdentity}
    (hi : .insertIdentity i ∈ writes) : (.account i.userId, .update) ∈ locks := by
  have hopened : ∀ firstDevice opening, Opened w now locks userId input firstDevice opening →
      .insertIdentity i ∈ opening → (.account i.userId, .update) ∈ locks := by
    intro firstDevice opening ho hmem
    cases firstDevice with
    | false => simp [(ho.later rfl).1] at hmem
    | true =>
      rw [(ho.first rfl).1, mem_singleton, Write.insertIdentity.injEq] at hmem
      rw [hmem]
      exact ho.lock
  cases stage with
  | lockAccount | selectRecord => simp [show writes = [] from h] at hi
  | selectIdentity | insertIdentity => simp [show writes = [] from h.1] at hi
  | selectDevice firstDevice | insertDevice firstDevice => exact hopened _ _ h hi
  | commit d =>
    rcases h with h | ⟨h, -⟩
    · simp [h] at hi
    · obtain ⟨firstDevice, opening, ho, -, hw⟩ := h.opened
      rw [hw] at hi
      rcases mem_append.1 hi with hi | hi
      · exact hopened _ _ ho hi
      · simp at hi

variable {tx : Backend.Tx}

/-- Whoever has inserted an identity holds the advisory lock of its account. -/
theorem lock_of_insertIdentity (ht : Backend.InTables tx) (h : Assertion w tx) {i : AccountIdentity}
    (hi : .insertIdentity i ∈ tx.writes) : (.account i.userId, .update) ∈ tx.locks := by
  obtain ⟨req, now, born, stage, locks, writes, covered⟩ := tx
  have htable := ht _ hi
  cases req with
  | registerDevice userId input => exact RegisterAt.lock h hi
  | _ => simp [Write.table, Request.tables] at htable

/-- While a call holds the advisory lock of an account, no other inserts its identity. -/
theorem identity_of_lock {u : Backend.Tx} (ht : Backend.InTables tx) (h : Assertion w tx)
    (hc : Locks.compatible tx.locks u.locks = true) (hl : (.account userId, .update) ∈ u.locks) :
    (tx.see w.db).identities.get userId = w.db.identities.get userId := by
  have hkeep : ∀ ws : List Write, (∀ x ∈ ws, x ∈ tx.writes) → ∀ db : Db,
      (e2eeBackend.applyAll db ws).identities.get userId = db.identities.get userId := by
    intro ws
    induction ws with
    | nil => intro _ db; rfl
    | cons x ws ih =>
      intro hsub db
      rw [Program.applyAll_cons, ih fun y hy => hsub y (mem_cons_of_mem _ hy)]
      cases x with
      | insertIdentity i =>
        refine Table.get_insert_ne fun he => ?_
        have hheld := lock_of_insertIdentity ht h (hsub _ mem_cons_self)
        rw [he] at hheld
        have := Locks.not_isWrite_of_protects (Locks.compatible_comm hc) hl rfl hheld
        simp [LockMode.isWrite] at this
      | _ => rfl
  exact hkeep tx.writes (fun x hx => hx) w.db

section

variable {w w' : Backend.World} {now : Timestamp} {locks : Locks LockKey} {writes : List Write}

/-- What the calls rely on, as far as the committed rows go. -/
structure Agree (w w' : Backend.World) (locks : Locks LockKey) : Prop where
  identity : ∀ userId, (LockKey.account userId, LockMode.update) ∈ locks →
    w'.db.identities.get userId = w.db.identities.get userId
  device : ∀ id, (LockKey.device id, LockMode.update) ∈ locks →
    w'.db.devices.get id = w.db.devices.get id

variable {userId : Uuid} {input : RegisterDeviceInput}

theorem Opened.agree {firstDevice : Bool} {opening : List Write}
    (h : Opened w now locks userId input firstDevice opening) (ha : Agree w w' locks) :
    Opened w' now locks userId input firstDevice opening := by
  have hi := ha.identity userId h.lock
  refine ⟨h.lock, fun hf => ?_, fun hf => ?_⟩
  · rw [hi]
    exact h.first hf
  · rw [hi]
    exact h.later hf

theorem Opened.grow {firstDevice : Bool} {opening : List Write}
    (h : Opened w now locks userId input firstDevice opening) (more : Locks LockKey) :
    Opened w now (locks ++ more) userId input firstDevice opening :=
  ⟨mem_append_left _ h.lock, h.first, h.later⟩

theorem deviceIs_congr {db db' : Db} {id : Uuid} {status : DeviceStatus}
    (he : db'.devices.get id = db.devices.get id) (h : db.deviceIs userId id status) :
    db'.deviceIs userId id status := by
  obtain ⟨d, hd, hrest⟩ := h
  exact ⟨d, by rw [he, hd], hrest⟩

theorem userDevice_congr {db db' : Db} {id : Uuid} (he : db'.devices.get id = db.devices.get id) :
    db'.userDevice userId id = db.userDevice userId id := by
  simp only [Db.userDevice, he]

variable {approver target : Uuid} {d : Device}

theorem Approving.agree (h : Approving w locks userId approver target d) (ha : Agree w w' locks) :
    Approving w' locks userId approver target d :=
  ⟨h.ne, h.lockApprover, h.lockTarget, deviceIs_congr (ha.device _ h.lockApprover) h.active,
    by rw [userDevice_congr (ha.device _ h.lockTarget), h.row], h.pending⟩

theorem Approving.grow (h : Approving w locks userId approver target d) (more : Locks LockKey) :
    Approving w (locks ++ more) userId approver target d :=
  ⟨h.ne, mem_append_left _ h.lockApprover, mem_append_left _ h.lockTarget, h.active,
    h.row, h.pending⟩

variable {deviceId : Uuid}

theorem Revoking.agree (h : Revoking w locks userId deviceId d) (ha : Agree w w' locks) :
    Revoking w' locks userId deviceId d :=
  ⟨h.lock, by rw [userDevice_congr (ha.device _ h.lock), h.row], h.active⟩

theorem Revoking.grow (h : Revoking w locks userId deviceId d) (more : Locks LockKey) :
    Revoking w (locks ++ more) userId deviceId d :=
  ⟨mem_append_left _ h.lock, h.row, h.active⟩

theorem Approved.agree (h : Approved w now locks writes userId approver target)
    (ha : Agree w w' locks) :
    Approved w' now locks writes userId approver target := by
  obtain ⟨d, rest, hp, hfree, hw⟩ := h
  exact ⟨d, rest, hp.agree ha, hfree, hw⟩

theorem Approved.grow (h : Approved w now locks writes userId approver target)
    (more : Locks LockKey) {ws : List Write} (hws : TrustFree ws) :
    Approved w now (locks ++ more) (writes ++ ws) userId approver target := by
  obtain ⟨d, rest, hp, hfree, rfl⟩ := h
  exact ⟨d, rest ++ ws, hp.grow more, hfree.append hws, rfl⟩

theorem Revoked.agree (h : Revoked w now locks writes userId deviceId) (ha : Agree w w' locks) :
    Revoked w' now locks writes userId deviceId := by
  obtain ⟨d, rest, hp, hfree, hw⟩ := h
  exact ⟨d, rest, hp.agree ha, hfree, hw⟩

theorem Revoked.grow (h : Revoked w now locks writes userId deviceId) (more : Locks LockKey)
    {ws : List Write} (hws : TrustFree ws) :
    Revoked w now (locks ++ more) (writes ++ ws) userId deviceId := by
  obtain ⟨d, rest, hp, hfree, rfl⟩ := h
  exact ⟨d, rest ++ ws, hp.grow more, hfree.append hws, rfl⟩

theorem RegisterAt.agree {stage : RegisterStage}
    (h : RegisterAt w now locks writes userId input stage) (ha : Agree w w' locks) :
    RegisterAt w' now locks writes userId input stage := by
  cases stage with
  | lockAccount | selectIdentity | insertIdentity | selectRecord => exact h
  | selectDevice firstDevice | insertDevice firstDevice => exact Opened.agree h ha
  | commit d =>
    rcases h with h | ⟨h, hid⟩
    · exact Or.inl h
    · obtain ⟨firstDevice, opening, ho, hd⟩ := h.opened
      exact Or.inr ⟨⟨⟨firstDevice, opening, ho.agree ha, hd⟩,
        by rw [ha.device _ h.lockDevice, h.absent], h.lockDevice⟩, hid⟩

theorem ApproveAt.agree {stage : ApproveStage}
    (h : ApproveAt w now locks writes userId approver target stage) (ha : Agree w w' locks) :
    ApproveAt w' now locks writes userId approver target stage := by
  cases stage with
  | lockApprover | selectRecord => exact h
  | lockTarget =>
    obtain ⟨hw, hne, hl, hact⟩ := h
    exact ⟨hw, hne, hl, deviceIs_congr (ha.device _ hl) hact⟩
  | updateDevice d => exact ⟨h.1, h.2.agree ha⟩
  | selectRooms | updateRooms => exact Approved.agree h ha
  | commit => exact h.imp id fun h => h.agree ha

theorem RevokeAt.agree {stage : RevokeStage} (h : RevokeAt w now locks writes userId deviceId stage)
    (ha : Agree w w' locks) :
    RevokeAt w' now locks writes userId deviceId stage := by
  cases stage with
  | lockDevice | selectRecord => exact h
  | updateDevice d => exact ⟨h.1, h.2.agree ha⟩
  | selectRooms | updateRooms => exact Revoked.agree h ha
  | commit => exact h.imp id fun h => h.agree ha

theorem At.agree {r : Request} {stage : r.Stage} (h : At w now locks writes r stage)
    (ha : Agree w w' locks) : At w' now locks writes r stage := by
  cases r with
  | registerDevice => exact RegisterAt.agree h ha
  | approveDevice => exact ApproveAt.agree h ha
  | revokeDevice => exact RevokeAt.agree h ha
  | _ => exact h

end

/-! ### The statements -/

variable {locked : LockKey → LockMode → Bool} {ls : Locks LockKey} {ws : List Write}

theorem registerAt_next {stage stage' : RegisterStage} (hown : Owned w)
    (h : RegisterAt w now locks writes userId input stage)
    (hs : RegisterNext userId input
      { db := e2eeBackend.applyAll w.db writes, seq := w.seq, now := now, locked := locked }
      stage stage' ls ws) :
    RegisterAt w now (locks ++ ls ++ ws.flatMap Write.guards) (writes ++ ws) userId input
      stage' := by
  cases hs with
  | lockAccount =>
    have hw : writes = [] := h
    exact ⟨by simp [hw], by simp⟩
  | agree i hi ha =>
    obtain ⟨rfl, hl⟩ := h
    exact ⟨by simpa using hl, by simp, fun _ => ⟨rfl, i, hi⟩⟩
  | first hi =>
    obtain ⟨rfl, hl⟩ := h
    exact ⟨rfl, by simpa using hl⟩
  | insertIdentity hi =>
    obtain ⟨rfl, hl⟩ := h
    exact ⟨by simpa using Or.inl hl, fun _ => ⟨rfl, hi⟩, by simp⟩
  | found firstDevice d hd hu ha =>
    have ho : Opened w now locks userId input firstDevice writes := h
    cases firstDevice with
    | false => simpa [RegisterAt] using (ho.later rfl).1
    | true =>
      -- an account without an identity has no device to be found
      have hw := (ho.first rfl).1
      have hmem : d ∈ w.db.devices.rows := by
        rw [hw] at hd
        exact Table.mem_of_get hd
      obtain ⟨i, hi⟩ := hown d hmem
      rw [hu, (ho.first rfl).2] at hi
      cases hi
  | fresh firstDevice hd =>
    have ho : Opened w now locks userId input firstDevice writes := h
    simpa [RegisterAt] using ho
  | selectRecord d hd =>
    have hw : writes = [] := h
    exact Or.inl (by simp [hw])
  | insertDevice firstDevice hu =>
    have ho : Opened w now locks userId input firstDevice writes := h
    have hdevices : (e2eeBackend.applyAll w.db writes).devices = w.db.devices := by
      cases firstDevice with
      | false => rw [(ho.later rfl).1]; rfl
      | true => rw [(ho.first rfl).1]; rfl
    refine Or.inr ⟨⟨⟨firstDevice, writes, ?_, rfl, rfl⟩, ?_, ?_⟩, rfl⟩
    · rw [append_assoc]
      exact ho.grow _
    · refine Table.get_eq_none_iff.2 fun x hx => ?_
      have := (all_eq_true.1 hu) x (by rw [hdevices]; exact hx)
      simp only [Bool.and_eq_true, decide_eq_true_eq] at this
      exact this.1
    · simp [Write.guards]

theorem approveAt_next {approver target : Uuid} {stage stage' : ApproveStage}
    (h : ApproveAt w now locks writes userId approver target stage)
    (hs : ApproveNext userId approver target
      { db := e2eeBackend.applyAll w.db writes, seq := w.seq, now := now, locked := locked }
      stage stage' ls ws) :
    ApproveAt w now (locks ++ ls ++ ws.flatMap Write.guards) (writes ++ ws) userId approver target
      stage' := by
  rw [append_assoc]
  cases hs with
  | lockApprover d hne hd ha =>
    have hw : writes = [] := h
    subst hw
    obtain ⟨hget, hu, -⟩ := userDevice_eq_some hd
    exact ⟨rfl, hne, by simp, d, hget, hu, ha⟩
  | alreadyActive d hd ha => simpa [ApproveAt] using h.1
  | lockTarget d hd ha =>
    obtain ⟨rfl, hne, hl, hact⟩ := h
    exact ⟨rfl, hne, mem_append_left _ hl, by simp, hact, hd, ha⟩
  | selectRecord d hd =>
    have hw : writes = [] := h
    exact Or.inl (by simp [hw])
  | updateDevice d =>
    obtain ⟨rfl, hp⟩ := h
    exact ⟨d, [], hp.grow _, by simp [TrustFree], rfl⟩
  | rekey d roomId rooms e he hs => exact Approved.grow h _ (by simp [TrustFree, Write.table])
  | done d => exact Or.inr (Approved.grow h _ (by simp [TrustFree]))
  | _ => exact Approved.grow h _ (by simp [TrustFree])

theorem revokeAt_next {deviceId : Uuid} {stage stage' : RevokeStage}
    (h : RevokeAt w now locks writes userId deviceId stage)
    (hs : RevokeNext userId deviceId
      { db := e2eeBackend.applyAll w.db writes, seq := w.seq, now := now, locked := locked }
      stage stage' ls ws) :
    RevokeAt w now (locks ++ ls ++ ws.flatMap Write.guards) (writes ++ ws) userId deviceId
      stage' := by
  rw [append_assoc]
  cases hs with
  | alreadyRevoked d hd hs =>
    have hw : writes = [] := h
    simpa [RevokeAt] using hw
  | lockDevice d hd hs =>
    have hw : writes = [] := h
    subst hw
    exact ⟨rfl, by simp, hd, hs⟩
  | selectRecord d hd =>
    have hw : writes = [] := h
    exact Or.inl (by simp [hw])
  | updateDevice d =>
    obtain ⟨rfl, hp⟩ := h
    exact ⟨d, [], hp.grow _, by simp [TrustFree], rfl⟩
  | rekey d roomId rooms e he => exact Revoked.grow h _ (by simp [TrustFree, Write.table])
  | done d => exact Or.inr (Revoked.grow h _ (by simp [TrustFree]))
  | _ => exact Revoked.grow h _ (by simp [TrustFree])

/-! ### What a commit does -/

/-- The writes of a call that is about to commit, and the rows it makes them against. -/
inductive Effect (w : Backend.World) (now : Timestamp) : Request → List Write → Prop where
  | register {userId : Uuid} {input : RegisterDeviceInput} {firstDevice : Bool}
      {opening : List Write}
      (habs : w.db.devices.get input.deviceId = none)
      (hfirst : firstDevice = true → opening = [.insertIdentity (input.identity userId now)] ∧
        w.db.identities.get userId = none)
      (hlater : firstDevice = false → opening = [] ∧ ∃ i, w.db.identities.get userId = some i) :
      Effect w now (.registerDevice userId input)
        (opening ++ [.insertDevice (input.device userId firstDevice now)])
  | approve {userId approver target : Uuid} {d : Device} {rest : List Write}
      (hne : approver ≠ target) (ha : w.db.deviceIs userId approver .active)
      (hd : w.db.userDevice userId target = some d) (hs : d.status = .pendingApproval)
      (hfree : TrustFree rest) :
      Effect w now (.approveDevice userId approver target)
        (.putDevice (d.approve approver now) :: rest)
  | revoke {userId deviceId : Uuid} {d : Device} {rest : List Write}
      (hd : w.db.userDevice userId deviceId = some d) (hs : d.status = .active)
      (hfree : TrustFree rest) :
      Effect w now (.revokeDevice userId deviceId) (.putDevice (d.revoke now) :: rest)

/-- **A call on devices that commits either wrote nothing at all or made its effect
against rows it still holds.** -/
theorem effect_of_commit {out : Response} (h : Assertion w tx) (hs : tx.stmt w locked = .commit out)
    (hr : tx.req.isTrust = true) :
    tx.writes = [] ∨ Effect w tx.now tx.req tx.writes := by
  obtain ⟨req, now, born, stage, locks, writes, covered⟩ := tx
  simp only [Assertion] at h
  cases req with
  | registerDevice userId input =>
    obtain ⟨d, rfl, -⟩ := register_commit hs
    rcases h with h | ⟨h, hid⟩
    · exact Or.inl h
    · obtain ⟨firstDevice, opening, ho, rfl, rfl⟩ := h.opened
      exact Or.inr (.register h.absent ho.first ho.later)
  | approveDevice userId approver target =>
    obtain ⟨d, rfl, -⟩ := approve_commit hs
    rcases h with h | ⟨d, rest, hp, hfree, rfl⟩
    · exact Or.inl h
    · exact Or.inr (.approve hp.ne hp.active hp.row hp.pending hfree)
  | revokeDevice userId deviceId =>
    obtain ⟨d, rfl, -⟩ := revoke_commit hs
    rcases h with h | ⟨d, rest, hp, hfree, rfl⟩
    · exact Or.inl h
    · exact Or.inr (.revoke hp.row hp.active hfree)
  | _ => simp [Request.isTrust] at hr

/-- An effect is a move. -/
theorem trustStep_of_effect {r : Request} (h : Effect w now r ws) :
    TrustStep w.db (e2eeBackend.applyAll w.db ws) := by
  cases h with
  | @register userId input firstDevice opening habs hfirst hlater =>
    cases firstDevice with
    | true =>
      obtain ⟨rfl, hi⟩ := hfirst rfl
      exact .first (input.identity userId now) (input.device userId true now) hi rfl habs rfl rfl
        rfl rfl
    | false =>
      obtain ⟨rfl, i, hi⟩ := hlater rfl
      exact .pending i (input.device userId false now) hi habs rfl rfl rfl rfl
  | @approve userId approver target d rest hne ha hd hs hfree =>
    obtain ⟨hget, hu, hid⟩ := userDevice_eq_some hd
    have hrest := hfree.applyAll (w.db.apply (.putDevice (d.approve approver now)))
    refine .approve d approver now (by rw [hid]; exact hne) (by rw [hu]; exact ha)
      (by rw [hid]; exact hget) hs ?_ ?_
    · exact hrest.1
    · exact hrest.2
  | @revoke userId deviceId d rest hd hs hfree =>
    obtain ⟨hget, hu, hid⟩ := userDevice_eq_some hd
    have hrest := hfree.applyAll (w.db.apply (.putDevice (d.revoke now)))
    refine .revoke d now (by rw [hid]; exact hget) hs ?_ ?_
    · exact hrest.1
    · exact hrest.2

theorem trustFree_of_not_trust (ht : Backend.InTables tx) (hr : tx.req.isTrust = false) :
    TrustFree tx.writes := by
  intro x hx
  obtain ⟨hi, hd⟩ := Request.tables_of_not_trust hr
  have htable := ht x hx
  exact ⟨fun he => hi (he ▸ htable), fun he => hd (he ▸ htable)⟩

/-- **Every commit is a move.** -/
theorem trustStep_of_commit {out : Response} (ht : Backend.InTables tx) (h : Assertion w tx)
    (hs : tx.stmt w locked = .commit out) :
    TrustStep w.db (tx.see w.db) := by
  cases hr : tx.req.isTrust with
  | true =>
    rcases effect_of_commit h hs hr with hw | he
    · rw [Program.Tx.see, hw]
      exact .idle rfl rfl
    · exact trustStep_of_effect he
  | false =>
    obtain ⟨hi, hd⟩ := (trustFree_of_not_trust ht hr).applyAll w.db
    exact .idle hi hd

/-! ### The outline -/

/-- Moves keep every device owned. -/
theorem owned_of_trustStep {db db' : Db} (hs : TrustStep db db')
    (h : ∀ d ∈ db.devices.rows, ∃ i, db.identities.get d.userId = some i) :
    ∀ d ∈ db'.devices.rows, ∃ i, db'.identities.get d.userId = some i := by
  intro x hx
  cases hs with
  | idle hi hd =>
    rw [hd] at hx
    rw [hi]
    exact h x hx
  | first i d hi hu hd _ _ hi' hd' =>
    rw [hd'] at hx
    rw [hi', Table.get_insert_of_none hi]
    rcases Table.mem_insert hx with hx | rfl
    · obtain ⟨j, hj⟩ := h x hx
      by_cases he : i.userId = x.userId
      · exact ⟨i, if_pos he⟩
      · exact ⟨j, by rw [if_neg he, hj]⟩
    · exact ⟨i, if_pos hu.symm⟩
  | pending i d hi hd _ _ hi' hd' =>
    rw [hd'] at hx
    rw [hi']
    rcases Table.mem_insert hx with hx | rfl
    · exact h x hx
    · exact ⟨i, hi⟩
  | approve d _ _ _ _ hd _ hi' hd' | revoke d _ hd _ hi' hd' =>
    rw [hd'] at hx
    rw [hi']
    rcases Table.mem_put hx with ⟨hx, -⟩ | rfl
    · exact h x hx
    · exact h d (Table.mem_of_get hd)

/-- **The outline of the device tables.** -/
theorem outline : Program.Outline e2eeBackend (fun _ => True) (fun _ tx => Backend.InTables tx)
    Owned Assertion where
  quiet := by
    intro w w' hq h
    unfold Owned
    rw [hq.db]
    exact h
  stable := by
    intro w w' u hl h
    exact At.agree h ⟨fun _ _ => by rw [hl.db], fun _ _ => by rw [hl.db]⟩
  start := by
    intro w r _ _
    cases r <;> first | exact rfl | trivial
  next := by
    intro w tx locked loc ls ws n _ _ hI h hs
    obtain ⟨req, now, born, stage, locks, writes, covered⟩ := tx
    cases req with
    | registerDevice userId input =>
      obtain ⟨hnext, rfl⟩ := register_next hs
      exact registerAt_next hI h hnext
    | approveDevice userId approver target =>
      obtain ⟨hnext, rfl⟩ := approve_next hs
      exact approveAt_next h hnext
    | revokeDevice userId deviceId =>
      obtain ⟨hnext, rfl⟩ := revoke_next hs
      exact revokeAt_next h hnext
    | _ => trivial
  commit := by
    intro w tx locked out _ hB hI h hs _
    exact owned_of_trustStep (trustStep_of_commit hB h hs) hI
  other := by
    intro w tx u locked out _ hB _ _ h hu hc _
    refine At.agree hu ⟨fun userId hl => ?_, fun id hl => ?_⟩
    · exact identity_of_lock hB h hc hl
    · exact (guarded_device id).see_eq hc hl rfl w.db
  reject := fun _ _ h _ _ => h

theorem holds {db : Db} (h : db.Initial) : Program.Holds e2eeBackend db Owned Assertion :=
  outline.holds (Backend.inTables_holds db) fun d hd => by
    rw [show (World.init db : Backend.World).db = db from rfl, h.devices] at hd
    simp at hd

end DeviceTrust

end RedcodeIm
