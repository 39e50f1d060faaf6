import RedcodeIm.Lib.ParentOrder
import RedcodeIm.Devices.TrustStep

/-!
# The trust chain of an account

Which devices of an account are trusted, and by whom: the first device is made active
with the account's identity, every other one by an approval of a device that was
active at that moment, and a revoked device stays revoked.

* `DevicesEvolve` — what can become of identities and devices between two versions.
* `TrustInv` — the invariant, with the history behind each device.
* `device_trust_chain` — the trust chain in every reachable state.
-/

namespace RedcodeIm

open ReadCommitted ParentOrder Table List

/-! ## Trusted devices and their approvers -/

/-- The device is or was active. -/
def Db.trusted (db : Db) (id : Uuid) : Prop :=
  ∃ d, db.devices.get id = some d ∧ d.status ≠ .pendingApproval

/-- The device that approved a device. -/
def Db.approver (db : Db) (id : Uuid) : Option Uuid :=
  (db.devices.get id).bind Device.approvedByDeviceId

/-- What can become of the identities and devices of one version in a later one. -/
structure DevicesEvolve (db db' : Db) : Prop where
  /-- An identity never changes. -/
  identity : ∀ userId i, db.identities.get userId = some i → db'.identities.get userId = some i
  /-- A device stays with its account; once trusted it stays trusted with the same
  approver, and once revoked it stays revoked. -/
  device : ∀ id d, db.devices.get id = some d → ∃ d', db'.devices.get id = some d' ∧
    d'.userId = d.userId ∧
    (d.status ≠ .pendingApproval → d'.status ≠ .pendingApproval ∧
      d'.approvedByDeviceId = d.approvedByDeviceId) ∧
    (d.status = .revoked → d'.status = .revoked)

namespace DevicesEvolve

theorem refl (db : Db) : DevicesEvolve db db :=
  ⟨fun _ _ h => h, fun _ d h => ⟨d, h, rfl, fun hs => ⟨hs, rfl⟩, fun hs => hs⟩⟩

theorem trans {a b c : Db} (h : DevicesEvolve a b) (h' : DevicesEvolve b c) :
    DevicesEvolve a c := by
  refine ⟨fun u i hi => h'.identity u i (h.identity u i hi), fun id d hd => ?_⟩
  obtain ⟨d₁, hd₁, hu₁, ht₁, hr₁⟩ := h.device id d hd
  obtain ⟨d₂, hd₂, hu₂, ht₂, hr₂⟩ := h'.device id d₁ hd₁
  refine ⟨d₂, hd₂, hu₂.trans hu₁, fun hs => ?_, fun hs => hr₂ (hr₁ hs)⟩
  obtain ⟨hs₁, ha₁⟩ := ht₁ hs
  obtain ⟨hs₂, ha₂⟩ := ht₂ hs₁
  exact ⟨hs₂, ha₂.trans ha₁⟩

end DevicesEvolve

variable {db db' : Db} {d : Device}

theorem get_devices_insert (hd : db.devices.get d.id = none)
    (hd' : db'.devices = db.devices.insert d) (id : Uuid) :
    db'.devices.get id = if d.id = id then some d else db.devices.get id := by
  rw [hd', get_insert_of_none hd]

theorem get_devices_put (hd' : db'.devices = db.devices.put d) (id : Uuid) :
    db'.devices.get id = if d.id = id then some d else db.devices.get id := by
  rw [hd', get_put]

/-- Moves are evolutions. -/
theorem TrustStep.evolve (h : TrustStep db db') : DevicesEvolve db db' := by
  cases h with
  | idle hi hd =>
    refine ⟨fun u i h => by rw [hi, h], fun id d h => ?_⟩
    exact ⟨d, by rw [hd, h], rfl, fun hs => ⟨hs, rfl⟩, fun hs => hs⟩
  | first i d hi hu hd hs ha hi' hd' =>
    refine ⟨fun u j hj => by rw [hi']; exact get_insert_of_get hj, fun id x hx => ?_⟩
    refine ⟨x, ?_, rfl, fun hs => ⟨hs, rfl⟩, fun hs => hs⟩
    rw [hd']
    exact get_insert_of_get hx
  | pending i d hi hd hs ha hi' hd' =>
    refine ⟨fun u j hj => by rw [hi', hj], fun id x hx => ?_⟩
    refine ⟨x, ?_, rfl, fun hs => ⟨hs, rfl⟩, fun hs => hs⟩
    rw [hd']
    exact get_insert_of_get hx
  | approve d approver now hne ha hd hs hi' hd' =>
    refine ⟨fun u j hj => by rw [hi', hj], fun id x hx => ?_⟩
    rw [get_devices_put hd']
    by_cases he : (d.approve approver now).id = id
    · have hxd : d = x := by
        have hid : d.id = id := he
        rw [← hid, hd] at hx
        exact Option.some.inj hx
      subst hxd
      refine ⟨_, if_pos he, rfl, fun hp => absurd hs hp, fun hr => ?_⟩
      rw [hs] at hr
      cases hr
    · exact ⟨x, by rw [if_neg he, hx], rfl, fun hs => ⟨hs, rfl⟩, fun hs => hs⟩
  | revoke d now hd hs hi' hd' =>
    refine ⟨fun u j hj => by rw [hi', hj], fun id x hx => ?_⟩
    rw [get_devices_put hd']
    by_cases he : (d.revoke now).id = id
    · have hxd : d = x := by
        have hid : d.id = id := he
        rw [← hid, hd] at hx
        exact Option.some.inj hx
      subst hxd
      exact ⟨_, if_pos he, rfl, fun _ => ⟨by simp [Device.revoke], rfl⟩, fun _ => rfl⟩
    · exact ⟨x, by rw [if_neg he, hx], rfl, fun hs => ⟨hs, rfl⟩, fun hs => hs⟩

/-- **Approvals stay ranked under every move.** -/
theorem TrustStep.ranked (h : TrustStep db db') {rank : Uuid → ℕ}
    (hr : Ranked db.trusted db.approver rank) :
    ∃ rank', Ranked db'.trusted db'.approver rank' := by
  cases h with
  | idle hi hd =>
    refine ⟨rank, hr.congr (fun x => ?_) fun x _ => ?_⟩
    · simp only [Db.trusted, hd]
    · simp only [Db.approver, hd]
  | first i d hi hu hd hs ha hi' hd' =>
    have hget := get_devices_insert hd hd'
    have hnew : ¬ db.trusted d.id := by
      rintro ⟨x, hx, -⟩
      rw [hd] at hx
      cases hx
    refine ⟨_, hr.extend hnew (q := none) (by simp) (fun x => ?_) (fun x hx => ?_) ?_⟩
    · simp only [Db.trusted, hget]
      by_cases he : d.id = x
      · subst he
        simp [hs]
      · simp [he, Ne.symm he]
    · have hne : d.id ≠ x := by
        rintro rfl
        exact hnew hx
      simp only [Db.approver, hget, if_neg hne]
    · simp only [Db.approver, hget, if_true, Option.bind_some, ha]
  | pending i d hi hd hs ha hi' hd' =>
    have hget := get_devices_insert hd hd'
    refine ⟨rank, hr.congr (fun x => ?_) fun x hx => ?_⟩
    · simp only [Db.trusted, hget]
      by_cases he : d.id = x
      · subst he
        simp [hs, hd]
      · simp [he]
    · have hne : d.id ≠ x := by
        rintro rfl
        obtain ⟨y, hy, -⟩ := hx
        rw [hd] at hy
        cases hy
      simp only [Db.approver, hget, if_neg hne]
  | approve d approver now hne ha hd hs hi' hd' =>
    have hget := get_devices_put hd'
    have hnew : ¬ db.trusted d.id := by
      rintro ⟨x, hx, hx'⟩
      rw [hd] at hx
      cases hx
      exact hx' hs
    have hq : ∀ p, some approver = some p → db.trusted p := by
      intro p hp
      cases hp
      obtain ⟨x, hx, -, hxs⟩ := ha
      exact ⟨x, hx, by rw [hxs]; simp⟩
    refine ⟨_, hr.extend hnew hq (fun x => ?_) (fun x hx => ?_) ?_⟩
    · simp only [Db.trusted, hget]
      by_cases he : d.id = x
      · subst he
        simp [Device.approve]
      · simp [Device.approve, he, Ne.symm he]
    · have hne' : (d.approve approver now).id ≠ x := by
        rintro rfl
        exact hnew hx
      simp only [Db.approver, hget, if_neg hne']
    · simp [Db.approver, hget, Device.approve]
  | revoke d now hd hs hi' hd' =>
    have hget := get_devices_put hd'
    refine ⟨rank, hr.congr (fun x => ?_) fun x _ => ?_⟩
    · simp only [Db.trusted, hget]
      by_cases he : (d.revoke now).id = x
      · have hid : d.id = x := he
        subst hid
        simp [Device.revoke, hd, hs]
      · simp [he]
    · simp only [Db.approver, hget]
      by_cases he : (d.revoke now).id = x
      · have hid : d.id = x := he
        subst hid
        simp [Device.revoke, hd]
      · simp [he]

/-- Where a device row comes from. -/
inductive RowOrigin (db db' : Db) (x : Device) : Prop where
  /-- From the row of the device before. -/
  | old (y : Device) (hy : y ∈ db.devices.rows) (hid : y.id = x.id) (hu : y.userId = x.userId)
      (ha : y.approvedByDeviceId = x.approvedByDeviceId)
      (hs : y.status ≠ .pendingApproval ↔ x.status ≠ .pendingApproval)
  /-- From the registration of the first device of its account. -/
  | first (hi : db.identities.get x.userId = none) (hd : db.devices.get x.id = none)
      (ha : x.approvedByDeviceId = none) (hd' : db'.devices = db.devices.insert x)
  /-- From a further registration. -/
  | pending (hs : x.status = .pendingApproval) (ha : x.approvedByDeviceId = none)
  /-- From its approval. -/
  | approved (approver : Uuid) (hne : approver ≠ x.id)
      (ha : x.approvedByDeviceId = some approver) (hactive : db.deviceIs x.userId approver .active)
      (hp : db.deviceIs x.userId x.id .pendingApproval) (hs : x.status = .active)
      (hactive' : db'.deviceIs x.userId approver .active)

theorem TrustStep.origin (h : TrustStep db db') {x : Device} (hx : x ∈ db'.devices.rows) :
    RowOrigin db db' x := by
  cases h with
  | idle hi hd =>
    rw [hd] at hx
    exact .old x hx rfl rfl rfl Iff.rfl
  | first i d hi hu hd hs ha hi' hd' =>
    have hx' := hx
    rw [hd'] at hx'
    rcases mem_insert hx' with hx' | rfl
    · exact .old x hx' rfl rfl rfl Iff.rfl
    · exact .first (by rw [hu, hi]) hd ha hd'
  | pending i d hi hd hs ha hi' hd' =>
    rw [hd'] at hx
    rcases mem_insert hx with hx | rfl
    · exact .old x hx rfl rfl rfl Iff.rfl
    · exact .pending hs ha
  | approve d approver now hne ha hd hs hi' hd' =>
    have hx' := hx
    rw [hd'] at hx'
    rcases mem_put hx' with ⟨hx', -⟩ | rfl
    · exact .old x hx' rfl rfl rfl Iff.rfl
    · have hne' : (d.approve approver now).id ≠ approver := Ne.symm hne
      refine .approved approver hne rfl ha ⟨d, hd, rfl, hs⟩ rfl ?_
      obtain ⟨a, haget, hau, has⟩ := ha
      exact ⟨a, by rw [get_devices_put hd', if_neg hne', haget], hau, has⟩
  | revoke d now hd hs hi' hd' =>
    rw [hd'] at hx
    rcases mem_put hx with ⟨hx, -⟩ | rfl
    · exact .old x hx rfl rfl rfl Iff.rfl
    · exact .old d (mem_of_get hd) rfl rfl rfl (by simp [Device.revoke, hs])

/-! ## The invariant -/

/-- Somewhere in the history the device was approved: pending before, active with this
approver after, and the approver, another device of the account, active both times. -/
def ApprovalSeen (w : Backend.World) (id userId approver : Uuid) : Prop :=
  approver ≠ id ∧ ∃ n v v', w.version n = some v ∧ w.version (n + 1) = some v' ∧
    v.deviceIs userId approver .active ∧ v'.deviceIs userId approver .active ∧
    v.deviceIs userId id .pendingApproval ∧
    ∃ d, v'.devices.get id = some d ∧ d.status = .active ∧ d.approvedByDeviceId = some approver

/-- The call that registered the device also created the identity of the account. -/
def FirstRegistration (f : Backend.Call) (id userId : Uuid) : Prop :=
  ∃ input i, f.req = .registerDevice userId input ∧ input.deviceId = id ∧
    (∃ out, f.result = .ok out) ∧ .insertIdentity i ∈ f.writes ∧ i.userId = userId

/-- The version in which a call found something to do. -/
def NewFor (v : Db) : Request → Prop
  | .registerDevice _ input => v.devices.get input.deviceId = none
  | .approveDevice userId _ target => v.deviceIs userId target .pendingApproval
  | .revokeDevice userId deviceId => v.deviceIs userId deviceId .active
  | _ => True

/-- What is true of the devices and of the history behind them. -/
structure TrustInv (w : Backend.World) : Prop where
  untried : ∀ d ∈ w.db.devices.rows, d.status = .pendingApproval → d.approvedByDeviceId = none
  ranked : ∃ rank, Ranked w.db.trusted w.db.approver rank
  single : ∀ d ∈ w.db.devices.rows, ∀ d' ∈ w.db.devices.rows, d.status ≠ .pendingApproval →
    d'.status ≠ .pendingApproval → d.approvedByDeviceId = none → d'.approvedByDeviceId = none →
    d.userId = d'.userId → d = d'
  approved : ∀ d ∈ w.db.devices.rows, ∀ a, d.approvedByDeviceId = some a →
    ApprovalSeen w d.id d.userId a
  first : ∀ d ∈ w.db.devices.rows, d.status ≠ .pendingApproval → d.approvedByDeviceId = none →
    ∃ f ∈ w.hist, FirstRegistration f d.id d.userId
  evolve : (w.past ++ [w.db]).Pairwise DevicesEvolve
  calls : ∀ f ∈ w.hist, ∀ out, f.result = .ok out → f.req.isTrust = true → f.writes = [] ∨
    ∃ n v, f.closed = n + 1 ∧ w.version n = some v ∧ NewFor v f.req

namespace TrustInv

variable {w : Backend.World}

theorem newFor_of_effect {now : Timestamp} {r : Request} {ws : List Write}
    (h : DeviceTrust.Effect w now r ws) : NewFor w.db r := by
  cases h with
  | register habs => exact habs
  | approve _ _ hd hs | revoke hd hs =>
    obtain ⟨hget, hu, -⟩ := userDevice_eq_some hd
    exact ⟨_, hget, hu, hs⟩

/-- A new device without approver that is trusted was registered with its identity. -/
theorem firstRegistration_of_effect {now : Timestamp} {r : Request} {ws : List Write}
    (h : DeviceTrust.Effect w now r ws) {x : Device}
    (hx : x ∈ (e2eeBackend.applyAll w.db ws).devices.rows) (hnew : w.db.devices.get x.id = none)
    (hs : x.status ≠ .pendingApproval) :
    ∃ input i, r = .registerDevice x.userId input ∧ input.deviceId = x.id ∧
      .insertIdentity i ∈ ws ∧ i.userId = x.userId := by
  have hold : ∀ y ∈ w.db.devices.rows, y.id ≠ x.id := fun y hy => get_eq_none_iff.1 hnew y hy
  cases h with
  | @register userId input firstDevice opening habs hfirst hlater =>
    cases firstDevice with
    | true =>
      obtain ⟨rfl, hi⟩ := hfirst rfl
      rcases mem_insert hx with hx | rfl
      · exact absurd rfl (hold x hx)
      · exact ⟨input, input.identity userId now, rfl, rfl, by simp, rfl⟩
    | false =>
      obtain ⟨rfl, -⟩ := hlater rfl
      rcases mem_insert hx with hx | rfl
      · exact absurd rfl (hold x hx)
      · exact absurd rfl hs
  | @approve userId approver target d rest hne ha hd hs' hfree =>
    rw [Program.applyAll_cons, (hfree.applyAll _).2] at hx
    obtain ⟨hget, -, hid⟩ := userDevice_eq_some hd
    rcases mem_put hx with ⟨hx, -⟩ | rfl
    · exact absurd rfl (hold x hx)
    · exact absurd rfl (hold d (mem_of_get hget))
  | @revoke userId deviceId d rest hd hs' hfree =>
    rw [Program.applyAll_cons, (hfree.applyAll _).2] at hx
    obtain ⟨hget, -, hid⟩ := userDevice_eq_some hd
    rcases mem_put hx with ⟨hx, -⟩ | rfl
    · exact absurd rfl (hold x hx)
    · exact absurd rfl (hold d (mem_of_get hget))

theorem approvalSeen_commit {id userId approver : Uuid} (h : ApprovalSeen w id userId approver)
    (tx : Backend.Tx) (out : Response) :
    ApprovalSeen (e2eeBackend.commit w tx out) id userId approver := by
  obtain ⟨hne, n, v, v', hv, hv', hrest⟩ := h
  exact ⟨hne, n, v, v', e2eeBackend.version_commit hv tx out,
    e2eeBackend.version_commit hv' tx out, hrest⟩

/-- **Every commit keeps the invariant.** -/
theorem commit {tx : Backend.Tx} {locked : LockKey → LockMode → Bool} {out : Response}
    (ht : Backend.InTables tx) (hA : DeviceTrust.Assertion w tx) (hown : DeviceTrust.Owned w)
    (h : TrustInv w) (hs : tx.stmt w locked = .commit out) :
    TrustInv (e2eeBackend.commit w tx out) := by
  have hstep : TrustStep w.db (tx.see w.db) := DeviceTrust.trustStep_of_commit ht hA hs
  have hdb : (e2eeBackend.commit w tx out).db = tx.see w.db := rfl
  refine ⟨?_, ?_, ?_, ?_, ?_, ?_, ?_⟩
  · -- a pending device has no approver
    intro x hx hp
    cases hstep.origin hx with
    | old y hy hid hu ha hst =>
      rw [← ha]
      refine h.untried y hy ?_
      by_contra hne
      exact hst.1 hne hp
    | first _ _ ha | pending _ ha => exact ha
    | approved _ _ _ _ _ hst =>
      rw [hst] at hp
      cases hp
  · obtain ⟨rank, hr⟩ := h.ranked
    exact hstep.ranked hr
  · -- two trusted devices without approver: neither, one or both of them new
    intro x hx x' hx' hst hst' ha ha' hu
    cases hstep.origin hx with
    | old y hy hid huy hay hsty =>
      cases hstep.origin hx' with
      | old y' hy' hid' huy' hay' hsty' =>
        have hyy := h.single y hy y' hy' (hsty.2 hst) (hsty'.2 hst') (hay.trans ha)
          (hay'.trans ha') (by rw [huy, huy', hu])
        refine eq_of_key_eq hx hx' ?_
        rw [← hid, ← hid', hyy]
      | first hi _ _ _ =>
        obtain ⟨i, hi'⟩ := hown y hy
        rw [huy, hu, hi] at hi'
        cases hi'
      | pending hp => exact absurd hp hst'
      | approved _ _ ha₂ => simp [ha₂] at ha'
    | first hi hd _ hd' =>
      cases hstep.origin hx' with
      | old y' hy' hid' huy' _ _ =>
        obtain ⟨i, hi'⟩ := hown y' hy'
        rw [huy', ← hu, hi] at hi'
        cases hi'
      | first _ hd₂ _ _ =>
        have hmem := hx'
        rw [hdb, hd'] at hmem
        rcases mem_insert hmem with hold | rfl
        · exact absurd rfl (get_eq_none_iff.1 hd₂ x' hold)
        · rfl
      | pending hp => exact absurd hp hst'
      | approved _ _ ha₂ => simp [ha₂] at ha'
    | pending hp => exact absurd hp hst
    | approved _ _ ha₂ => simp [ha₂] at ha
  · intro x hx a ha
    cases hstep.origin hx with
    | old y hy hid hu hay _ =>
      rw [← hid, ← hu]
      exact approvalSeen_commit (h.approved y hy a (hay.trans ha)) tx out
    | first _ _ ha₂ | pending _ ha₂ => simp [ha₂] at ha
    | approved approver hne ha₂ hact hp hst hact' =>
      rw [ha₂, Option.some.injEq] at ha
      subst ha
      exact ⟨hne, w.past.length, w.db, tx.see w.db,
        e2eeBackend.version_commit w.version_length tx out, Program.version_made w tx out, hact,
        hact',
        hp, x, get_of_mem hx, hst, ha₂⟩
  · intro x hx hst ha
    have hcases : (∃ y ∈ w.db.devices.rows, y.id = x.id ∧ y.userId = x.userId ∧
        y.approvedByDeviceId = none ∧ y.status ≠ .pendingApproval) ∨
          w.db.devices.get x.id = none := by
      cases hstep.origin hx with
      | old y hy hid hu hay hsty => exact Or.inl ⟨y, hy, hid, hu, hay.trans ha, hsty.2 hst⟩
      | first _ hd => exact Or.inr hd
      | pending hp => exact absurd hp hst
      | approved _ _ ha₂ => simp [ha₂] at ha
    rcases hcases with ⟨y, hy, hid, hu, hay, hsty⟩ | hnew
    · obtain ⟨f, hf, hreg⟩ := h.first y hy hsty hay
      rw [hid, hu] at hreg
      exact ⟨f, mem_append_left _ hf, hreg⟩
    · -- the row is new, so the call that commits is its registration
      have hchanged : tx.req.isTrust = true := by
        cases hr : tx.req.isTrust with
        | true => rfl
        | false =>
          have hfree := DeviceTrust.trustFree_of_not_trust ht hr
          rw [hdb, Program.Tx.see, (hfree.applyAll w.db).2] at hx
          exact absurd rfl (get_eq_none_iff.1 hnew x hx)
      rcases DeviceTrust.effect_of_commit hA hs hchanged with hw | he
      · rw [hdb, Program.Tx.see, hw] at hx
        exact absurd rfl (get_eq_none_iff.1 hnew x hx)
      · obtain ⟨input, i, hreq, hid, hi, hiu⟩ := firstRegistration_of_effect he hx hnew hst
        exact ⟨_, mem_append_right _ (mem_singleton_self _), input, i, hreq, hid,
          ⟨out, rfl⟩, hi, hiu⟩
  · rw [Program.past_commit, Program.db_commit, pairwise_append]
    refine ⟨h.evolve, pairwise_singleton _ _, fun a ha b hb => ?_⟩
    rw [mem_singleton.1 hb]
    refine DevicesEvolve.trans ?_ hstep.evolve
    rcases mem_append.1 ha with ha | ha
    · exact (pairwise_append.1 h.evolve).2.2 a ha w.db (by simp)
    · rw [mem_singleton.1 ha]
      exact DevicesEvolve.refl _
  · intro f hf out' hout htrust
    rcases mem_append.1 hf with hf | hf
    · rcases h.calls f hf out' hout htrust with hw | ⟨n, v, hn, hv, hnew⟩
      · exact Or.inl hw
      · exact Or.inr ⟨n, v, hn, e2eeBackend.version_commit hv tx out, hnew⟩
    · rw [mem_singleton.1 hf] at htrust ⊢
      rcases DeviceTrust.effect_of_commit hA hs htrust with hw | he
      · exact Or.inl hw
      · exact Or.inr ⟨w.past.length, w.db, rfl, e2eeBackend.version_commit w.version_length tx out,
          newFor_of_effect he⟩

/-- The invariant speaks of committed rows, versions and records only. -/
theorem congr {w' : Backend.World} (hdb : w'.db = w.db) (hpast : w'.past = w.past)
    (hhist : ∀ f ∈ w'.hist, f ∈ w.hist ∨ ∃ err, f.result = .error err)
    (hsub : ∀ f ∈ w.hist, f ∈ w'.hist) (h : TrustInv w) : TrustInv w' := by
  have hv : ∀ n, w'.version n = w.version n := by
    intro n
    simp [World.version, hdb, hpast]
  refine ⟨by rw [hdb]; exact h.untried, by rw [hdb]; exact h.ranked, by rw [hdb]; exact h.single,
    ?_, ?_, by rw [hpast, hdb]; exact h.evolve, ?_⟩
  · intro d hd a ha
    rw [hdb] at hd
    obtain ⟨hne, n, v, v', hn, hn', hrest⟩ := h.approved d hd a ha
    exact ⟨hne, n, v, v', by rw [hv, hn], by rw [hv, hn'], hrest⟩
  · intro d hd hst ha
    rw [hdb] at hd
    obtain ⟨f, hf, hreg⟩ := h.first d hd hst ha
    exact ⟨f, hsub f hf, hreg⟩
  · intro f hf out hout htrust
    rcases hhist f hf with hf | ⟨err, he⟩
    · rcases h.calls f hf out hout htrust with hw | ⟨n, v, hn, hvn, hnew⟩
      · exact Or.inl hw
      · exact Or.inr ⟨n, v, hn, by rw [hv, hvn], hnew⟩
    · rw [he] at hout
      cases hout

/-- The outline of the trust chain, over that of the device tables. -/
theorem outline : Program.Outline e2eeBackend DeviceTrust.Owned
    (fun w tx => DeviceTrust.Assertion w tx ∧ Backend.InTables tx) TrustInv
    (fun _ _ => True) where
  quiet := fun hq h =>
    h.congr hq.db hq.past (fun f hf => Or.inl (by rwa [hq.hist] at hf)) fun f hf => by rwa [hq.hist]
  stable := fun _ _ => trivial
  start := fun _ _ _ => trivial
  next := fun _ _ _ _ _ => trivial
  commit := fun hown hB h _ hs _ => h.commit hB.2 hB.1 hown hs
  other := fun _ _ _ _ _ _ _ _ => trivial
  reject := by
    intro w tx locked err _ _ h _ _
    have hhist : ∀ f ∈ (e2eeBackend.reject w tx err).hist,
        f ∈ w.hist ∨ ∃ err, f.result = .error err := by
      intro f hf
      rcases mem_append.1 hf with hf | hf
      · exact Or.inl hf
      · rw [mem_singleton.1 hf]
        exact Or.inr ⟨err, rfl⟩
    exact TrustInv.congr (w := w) rfl rfl hhist (fun f hf => mem_append_left _ hf) h

theorem init {db : Db} (h : db.Initial) : TrustInv (World.init db) := by
  have hrows : (World.init db : Backend.World).db.devices.rows = [] := h.devices
  refine ⟨by simp [hrows], ⟨fun _ => 0, ?_, ?_⟩, by simp [hrows], by simp [hrows],
    by simp [hrows], pairwise_singleton _ _, by simp [World.init]⟩
  · rintro x ⟨d, hd, -⟩
    have := mem_of_get hd
    simp [hrows] at this
  · rintro x ⟨d, hd, -⟩
    have := mem_of_get hd
    simp [hrows] at this

end TrustInv

variable {s : Backend.State}

variable (hs : Backend.Reachable s)

include hs

/-- The invariant in a reachable state. -/
theorem Backend.Reachable.trust : TrustInv s.toWorld := by
  obtain ⟨db, hdb, hr⟩ := hs
  have hK : Program.Holds e2eeBackend db DeviceTrust.Owned
      (fun w tx => DeviceTrust.Assertion w tx ∧ Backend.InTables tx) := by
    intro s hs
    have hd := DeviceTrust.holds hdb s hs
    have ht := Backend.inTables_holds db s hs
    exact ⟨hd.1, fun i tx htx => ⟨hd.2 i tx htx, ht.2 i tx htx⟩⟩
  exact (TrustInv.outline.holds hK (TrustInv.init hdb) s hr).1

theorem Backend.Reachable.recorded : ∀ f ∈ s.hist, Program.Recorded e2eeBackend s.toWorld f := by
  obtain ⟨db, -, hr⟩ := hs
  exact (Program.history_holds db s hr).1

theorem Backend.Reachable.evolve {n m : ℕ} (hnm : n ≤ m) {a b : Db} (ha : s.version n = some a)
    (hb : s.version m = some b) : DevicesEvolve a b :=
  World.rel_of_version DevicesEvolve.refl hs.trust.evolve hnm ha hb

/-- The current rows evolved from every version. -/
theorem Backend.Reachable.evolve_db {n : ℕ} {a : Db} (ha : s.version n = some a) :
    DevicesEvolve a s.db := by
  have hn : n ≤ s.past.length := by
    obtain ⟨hn, -⟩ := List.getElem?_eq_some_iff.1 ha
    rw [length_append, length_singleton] at hn
    omega
  exact hs.evolve hn ha s.version_length

/-- Devices evolve along every run. -/
theorem evolve_of_reach {s' : Backend.State} (h : Program.Reach s s') :
    DevicesEvolve s.db s'.db := by
  induction h with
  | refl => exact DevicesEvolve.refl _
  | @step s₁ s₂ a hr _ hstep ih =>
    refine ih.trans ?_
    cases Program.step_cases hstep with
    | commit i tx out htx hstmt =>
      have hs₂ := (hs.reach hr).reach (Program.ReachUnder.refl.step trivial hstep)
      exact hs₂.evolve_db (e2eeBackend.version_commit s₁.version_length tx out)
    | begin | next | reject | abort | tick => exact DevicesEvolve.refl _

/-! ## The chain -/

omit hs in
/-- The call repeats what an earlier one has done: when it committed, or before, the device
it registers was there, the device it approves was trusted, the device it revokes was
revoked. -/
def RepeatedCall (s : Backend.State) (f : Backend.Call) : Prop :=
  ∃ n v, n < f.closed ∧ s.version n = some v ∧
    match f.req with
    | .registerDevice _ input => ∃ d, v.devices.get input.deviceId = some d
    | .approveDevice _ _ target => v.trusted target
    | .revokeDevice _ deviceId => ∃ d, v.devices.get deviceId = some d ∧ d.status = .revoked
    | _ => False

omit hs in
/-- The trust chain of all accounts. -/
structure TrustChain (s : Backend.State) : Prop where
  /-- A stored root identity never changes. -/
  identity : ∀ s', Program.Reach s s' → ∀ userId i, s.db.identities.get userId = some i →
    s'.db.identities.get userId = some i
  /-- A revoked device stays revoked. -/
  revoked : ∀ s', Program.Reach s s' → ∀ id d, s.db.devices.get id = some d →
    d.status = .revoked → ∃ d', s'.db.devices.get id = some d' ∧ d'.status = .revoked
  /-- A device that is or was active never waits for approval again and keeps its approver. -/
  kept : ∀ s', Program.Reach s s' → ∀ id d, s.db.devices.get id = some d →
    d.status ≠ .pendingApproval → ∃ d', s'.db.devices.get id = some d' ∧
      d'.status ≠ .pendingApproval ∧ d'.approvedByDeviceId = d.approvedByDeviceId
  /-- At most one device of an account was made active without an approver. -/
  single : ∀ d ∈ s.db.devices.rows, ∀ d' ∈ s.db.devices.rows, d.status ≠ .pendingApproval →
    d'.status ≠ .pendingApproval → d.approvedByDeviceId = none → d'.approvedByDeviceId = none →
    d.userId = d'.userId → d = d'
  /-- It is the one whose registration created the identity. -/
  first : ∀ d ∈ s.db.devices.rows, d.status ≠ .pendingApproval → d.approvedByDeviceId = none →
    ∃ f ∈ s.hist, FirstRegistration f d.id d.userId
  /-- Every other was approved by a different device of the account, active at that moment. -/
  approved : ∀ d ∈ s.db.devices.rows, ∀ a, d.approvedByDeviceId = some a →
    ApprovalSeen s.toWorld d.id d.userId a
  /-- No device is among its own approvers. -/
  acyclic : ∀ id, s.db.trusted id → ¬ Relation.TransGen (Ascends s.db.approver) id id
  /-- The approvers lead to the first device of the account. -/
  rooted : ∀ d ∈ s.db.devices.rows, d.status ≠ .pendingApproval →
    ∃ root ∈ s.db.devices.rows, root.status ≠ .pendingApproval ∧
      root.approvedByDeviceId = none ∧ root.userId = d.userId ∧
      Relation.ReflTransGen (Ascends s.db.approver) d.id root.id
  /-- A repeated call that succeeds leaves the database as it was. -/
  repeated : ∀ f ∈ s.hist, ∀ out, f.result = .ok out → RepeatedCall s f →
    s.version f.closed = s.version (f.closed - 1)

/-- The approver of a device belongs to its account. -/
theorem Backend.Reachable.approver_user (hd : d ∈ s.db.devices.rows) {a : Uuid}
    (ha : d.approvedByDeviceId = some a) :
    ∃ x, s.db.devices.get a = some x ∧ x.userId = d.userId := by
  obtain ⟨-, n, v, -, hv, -, ⟨x, hx, hxu, -⟩, -⟩ := hs.trust.approved d hd a ha
  obtain ⟨x', hx', hu, -⟩ := (hs.evolve_db hv).device a x hx
  exact ⟨x', hx', hu.trans hxu⟩

/-- All approvers, direct and indirect, belong to the account. -/
theorem Backend.Reachable.ancestor_user (hd : d ∈ s.db.devices.rows) {r : Uuid}
    (h : Relation.ReflTransGen (Ascends s.db.approver) d.id r) :
    ∃ x, s.db.devices.get r = some x ∧ x.userId = d.userId := by
  induction h with
  | refl => exact ⟨d, get_of_mem hd, rfl⟩
  | tail _ hbc ih =>
    obtain ⟨x, hx, hxu⟩ := ih
    simp only [Ascends, Db.approver, hx, Option.bind_some] at hbc
    obtain ⟨y, hy, hyu⟩ := hs.approver_user (mem_of_get hx) hbc
    exact ⟨y, hy, hyu.trans hxu⟩

omit hs in
/-- A repeated call has nothing new to do. -/
theorem not_newFor_of_repeated {v v' : Db} (h : DevicesEvolve v v') {r : Request}
    (hr : match r with
      | .registerDevice _ input => ∃ d, v.devices.get input.deviceId = some d
      | .approveDevice _ _ target => v.trusted target
      | .revokeDevice _ deviceId => ∃ d, v.devices.get deviceId = some d ∧ d.status = .revoked
      | _ => False) : r.isTrust = true ∧ ¬ NewFor v' r := by
  cases r with
  | registerDevice userId input =>
    obtain ⟨d, hd⟩ := hr
    obtain ⟨d', hd', -⟩ := h.device _ d hd
    refine ⟨rfl, fun hnew => ?_⟩
    rw [show v'.devices.get input.deviceId = none from hnew] at hd'
    cases hd'
  | approveDevice userId approver target =>
    obtain ⟨d, hd, hs⟩ := hr
    obtain ⟨d', hd', -, ht, -⟩ := h.device _ d hd
    refine ⟨rfl, ?_⟩
    rintro ⟨x, hx, -, hxs⟩
    rw [hd', Option.some.injEq] at hx
    exact (ht hs).1 (hx ▸ hxs)
  | revokeDevice userId deviceId =>
    obtain ⟨d, hd, hs⟩ := hr
    obtain ⟨d', hd', -, -, hrev⟩ := h.device _ d hd
    refine ⟨rfl, ?_⟩
    rintro ⟨x, hx, -, hxs⟩
    rw [hd', Option.some.injEq] at hx
    rw [← hx, hrev hs] at hxs
    cases hxs
  | _ => exact absurd hr id

/-- A repeated call that succeeds changes nothing. -/
theorem version_of_repeated {f : Backend.Call} (hf : f ∈ s.hist) {out : Response}
    (hout : f.result = .ok out) (hrep : RepeatedCall s f) :
    s.version f.closed = s.version (f.closed - 1) := by
  obtain ⟨n, v, hlt, hv, hmatch⟩ := hrep
  obtain ⟨m, db, hclosed, -, hm, hmade⟩ := (hs.recorded f hf).made out hout
  have hev : DevicesEvolve v db := hs.evolve (by omega) hv hm
  obtain ⟨htrust, hnot⟩ := not_newFor_of_repeated hev hmatch
  rcases hs.trust.calls f hf out hout htrust with hw | ⟨k, u, hk, hu, hnew⟩
  · rw [hclosed, hmade, hw, Nat.add_sub_cancel, hm]
    rfl
  · have hkm : k = m := by omega
    rw [hkm, hm, Option.some.injEq] at hu
    rw [← hu] at hnew
    exact absurd hnew hnot

omit hs

/-- **The trust chain of every account holds in every reachable state.** -/
theorem device_trust_chain {s : Backend.State} (hs : Backend.Reachable s) : TrustChain s := by
  obtain ⟨rank, hrank⟩ := hs.trust.ranked
  refine ⟨?_, ?_, ?_, hs.trust.single, hs.trust.first, hs.trust.approved, ?_, ?_, ?_⟩
  · intro s' hr
    exact (evolve_of_reach hs hr).identity
  · intro s' hr id d hd hst
    obtain ⟨d', hd', -, -, hrev⟩ := (evolve_of_reach hs hr).device id d hd
    exact ⟨d', hd', hrev hst⟩
  · intro s' hr id d hd hst
    obtain ⟨d', hd', -, ht, -⟩ := (evolve_of_reach hs hr).device id d hd
    exact ⟨d', hd', ht hst⟩
  · intro id hid
    exact hrank.irrefl hid
  · intro d hd hst
    obtain ⟨r, ⟨root, hget, hrst⟩, hnone, hpath⟩ :=
      hrank.root (x := d.id) ⟨d, get_of_mem hd, hst⟩
    obtain ⟨x, hx, hxu⟩ := hs.ancestor_user hd hpath
    rw [hget, Option.some.injEq] at hx
    subst hx
    have hid : root.id = r := key_of_get hget
    simp only [Db.approver, hget, Option.bind_some] at hnone
    exact ⟨root, mem_of_get hget, hrst, hnone, hxu, hid ▸ hpath⟩
  · intro f hf out hout hrep
    exact version_of_repeated hs hf hout hrep

theorem device_trust_chain_sample :
    Sample.start.db.approver 12 = some 11 ∧ Sample.start.db.approver 11 = none ∧
      TrustChain Sample.start :=
  ⟨by decide, by decide, device_trust_chain Sample.reachable_start⟩

end RedcodeIm
