import RedcodeIm.Coordinator.DeviceSetup

/-!
# What a set-up keeps

Whatever is cut short and whatever the others do, an installation registers one device, with the
material of the account state it has stored, and keeps to its identity from then on.

* `SetUp` — the invariant of the device and the server.
* `Compatible` — the stored state and the account have the same root key.
* `ensureReady_keeps` — every run keeps both, the second under a condition.
* `setUp_of_history`, `compatible_of_history` — so does every history.
* `kept_of_history` — no history takes back what the server has stored.
-/

namespace RedcodeIm

open Awaiting Restarts Relation

variable {σ : Type} {install : Install σ}

/-! ## The invariant -/

/-- A device of the installation at the server is the one that is stored. -/
def Install.Described (install : Install σ) (w : World σ Server) (d : Uuid) (x : Device) : Prop :=
  ∃ p state i, w.device.profile = some p ∧ w.device.state = some state ∧ p.deviceId = d ∧
    w.host.db.identities.get install.accountId = some i ∧ x.userId = install.accountId ∧
    x.agrees (install.input d p.deviceLabel (install.material state)) = true ∧
    i.agrees (install.input d p.deviceLabel (install.material state)) = true

/-- The device is registered, and active unless it waits by the status. -/
def Install.RowIs (d : Uuid) (status : DeviceStatus) (w : World σ Server) : Prop :=
  ∃ x, w.host.db.devices.get d = some x ∧ (status ≠ .pendingApproval → x.status = .active)

/-- What is stored and what the server knows fit together. -/
structure SetUp (install : Install σ) (w : World σ Server) : Prop where
  settled : w.host.Settled
  genuine : ∀ i, w.host.db.identities.get install.accountId = some i →
    install.Genuine i.rootPublicKey i.rootFingerprint i.protocolVersion
  prints : install.OwnPrints w.host.db
  profile : ∀ p, w.device.profile = some p → p.deviceId ∈ install.ids ∧ AcceptedLabel p.deviceLabel
  state : ∀ state, w.device.state = some state → w.device.profile.isSome = true ∧
    install.sound state ∧ (install.material state).credentialFingerprint ∈ install.prints
  device : ∀ d ∈ install.ids, ∀ x, w.host.db.devices.get d = some x →
    install.Described w d x ∧ x.status ≠ .revoked
  registered : ∀ p, w.device.profile = some p → p.registered = true →
    Install.RowIs p.deviceId p.deviceStatus w

/-- The stored state has the root key of the account. -/
def Install.Agreed (install : Install σ) (db : Db) (state : σ) : Prop :=
  ∀ i, db.identities.get install.accountId = some i →
    i.rootPublicKey = (install.material state).rootPublicKey

/-- **The condition** of a set-up that can be completed: the state, where there is one, has the
root key of the account, where it has one. -/
def Install.Compatible (install : Install σ) (w : World σ Server) : Prop :=
  ∀ state, w.device.state = some state → install.Agreed w.host.db state

/-- A registration that gives the account its identity gives it the one of the stored state. -/
def Install.Heeds (install : Install σ) (w : World σ Server) : Request → Prop
  | .registerDevice userId input => userId = install.accountId →
    w.host.db.identities.get userId = none → ∀ state, w.device.state = some state →
      input.rootPublicKey = (install.material state).rootPublicKey
  | _ => True

/-- A state that is stored first has the root key of the account. -/
def Install.Timely (install : Install σ) (w : World σ Server) : Effect σ → Prop
  | .storage (.write state) => w.device.state = none → install.Agreed w.host.db state
  | _ => True

variable {w : World σ Server}

theorem SetUp.described_of_leftAlone {s : Server} {d : Uuid} {x x' : Device}
    (hu : LeftAlone install w.host.db s.db) (hx : SameDevice x x') (h : install.Described w d x) :
    install.Described { w with host := s } d x' := by
  obtain ⟨p, state, i, hp, hs, hd, hi, hown, hagrees, hroot⟩ := h
  exact ⟨p, state, i, hp, hs, hd, hu.identity i hi, hx.userId.trans hown,
    (hx.agrees _).trans hagrees, hroot⟩

theorem Install.RowIs.of_leftAlone {s : Server} {d : Uuid} {status : DeviceStatus}
    (hu : LeftAlone install w.host.db s.db) (hd : d ∈ install.ids) (h : Install.RowIs d status w) :
    Install.RowIs d status { w with host := s } := by
  obtain ⟨x, hx, hactive⟩ := h
  obtain ⟨x', hx', hsame⟩ := hu.device d hd x hx
  exact ⟨x', hx', fun h => hsame.active (hactive h)⟩

/-- **The invariant** is kept where what belongs to the installation is left alone. -/
theorem SetUp.of_leftAlone {s : Server} (h : SetUp install w) (hs : s.Settled)
    (hu : LeftAlone install w.host.db s.db) :
    SetUp install { w with host := s } where
  settled := hs
  genuine i hi := (hu.genuine i hi).elim (h.genuine i) id
  prints := hu.prints h.prints
  profile := h.profile
  state := h.state
  device d hd x hx := by
    obtain ⟨y, hy, hsame⟩ := hu.devices d hd x hx
    obtain ⟨hdescribed, hstanding⟩ := h.device d hd y hy
    exact ⟨described_of_leftAlone hu hsame hdescribed, hsame.standing hstanding⟩
  registered p hp hr := (h.registered p hp hr).of_leftAlone hu (h.profile p hp).1

variable {condition : World σ Server → Request → Prop} {w' : World σ Server}

theorem SetUp.of_others (h : SetUp install w) (ho : install.Others condition w w') :
    SetUp install w' ∧ w'.device = w.device ∧ LeftAlone install w.host.db w'.host.db := by
  cases ho with
  | call r hforeign _ =>
    have hu := hforeign.leftAlone h.settled
    exact ⟨h.of_leftAlone (h.settled.call r) hu, rfl, hu⟩
  | tick n =>
    have hu : LeftAlone install w.host.db (w.host.tick n).db := leftAlone_of_eq rfl rfl
    exact ⟨h.of_leftAlone (h.settled.tick n) hu, rfl, hu⟩

theorem Compatible.of_others (hc : install.Compatible w) (h : SetUp install w)
    (hheeds : ∀ w r, condition w r → install.Heeds w r) (ho : install.Others condition w w') :
    install.Compatible w' := by
  cases ho with
  | call r _ hcond =>
    intro state hstate i hi
    rcases h.settled.identity_of_call hi with hi | ⟨hnone, input, rfl, rfl⟩
    · exact hc state hstate i hi
    · exact hheeds _ _ hcond rfl hnone state hstate
  | tick n => exact hc

/-! ## What the installation stores -/

section

variable {w : World σ Server}

/-- Without a state there is no device at the server. -/
theorem SetUp.no_device (h : SetUp install w) (hnone : w.device.state = none) {d : Uuid}
    (hd : d ∈ install.ids) : w.host.db.devices.get d = none := by
  cases hx : w.host.db.devices.get d with
  | none => rfl
  | some x =>
    obtain ⟨⟨_, state, _, _, hstate, _⟩, _⟩ := h.device d hd x hx
    rw [hnone] at hstate
    cases hstate

theorem SetUp.newProfile (h : SetUp install w) (hnone : w.device.state = none) {p : DeviceProfile}
    (hids : p.deviceId ∈ install.ids) (hlabel : AcceptedLabel p.deviceLabel)
    (hp : p.registered = false) :
    SetUp install { w with device := { w.device with profile := some p } } where
  settled := h.settled
  genuine := h.genuine
  prints := h.prints
  profile p' hp' := by
    cases hp'
    exact ⟨hids, hlabel⟩
  state state hs := by
    have hs' : w.device.state = some state := hs
    rw [hnone] at hs'
    cases hs'
  device d hd x hx := by
    have hx' : w.host.db.devices.get d = some x := hx
    rw [h.no_device hnone hd] at hx'
    cases hx'
  registered p' hp' hr := by
    cases hp'
    rw [hp] at hr
    cases hr

theorem SetUp.newState (h : SetUp install w) (hnone : w.device.state = none)
    (hp : w.device.profile.isSome = true) {state : σ} (hsound : install.sound state)
    (hprint : (install.material state).credentialFingerprint ∈ install.prints) :
    SetUp install { w with device := { w.device with state := some state } } where
  settled := h.settled
  genuine := h.genuine
  prints := h.prints
  profile := h.profile
  state state' hs := by
    cases hs
    exact ⟨hp, hsound, hprint⟩
  device d hd x hx := by
    have hx' : w.host.db.devices.get d = some x := hx
    rw [h.no_device hnone hd] at hx'
    cases hx'
  registered := h.registered

/-- A state with the same material. -/
theorem SetUp.sameMaterial (h : SetUp install w) {state state' : σ}
    (hs : w.device.state = some state) (hsound : install.sound state')
    (hm : install.material state' = install.material state) :
    SetUp install { w with device := { w.device with state := some state' } } where
  settled := h.settled
  genuine := h.genuine
  prints := h.prints
  profile := h.profile
  state state'' hs' := by
    cases hs'
    exact ⟨(h.state state hs).1, hsound, hm ▸ (h.state state hs).2.2⟩
  device d hd x hx := by
    obtain ⟨⟨p, state₁, i, hp, hs₁, hid, hi, hown, hagrees, hroot⟩, hstanding⟩ := h.device d hd x hx
    rw [hs] at hs₁
    cases hs₁
    rw [← hm] at hagrees hroot
    exact ⟨⟨p, state', i, hp, rfl, hid, hi, hown, hagrees, hroot⟩, hstanding⟩
  registered := h.registered

/-- A profile of the same device, once it is registered. -/
theorem SetUp.sameDevice (h : SetUp install w) {p p' : DeviceProfile}
    (hp : w.device.profile = some p) (hid : p'.deviceId = p.deviceId)
    (hlabel : p'.deviceLabel = p.deviceLabel)
    (hrow : Install.RowIs p.deviceId p'.deviceStatus w) :
    SetUp install { w with device := { w.device with profile := some p' } } where
  settled := h.settled
  genuine := h.genuine
  prints := h.prints
  profile p₁ hp₁ := by
    cases hp₁
    rw [hid, hlabel]
    exact h.profile p hp
  state state hs := ⟨rfl, (h.state state hs).2⟩
  device d hd x hx := by
    obtain ⟨⟨p₁, state, i, hp₁, hs, hd', hi, hown, hagrees, hroot⟩, hstanding⟩ := h.device d hd x hx
    rw [hp] at hp₁
    cases hp₁
    rw [← hlabel] at hagrees hroot
    exact ⟨⟨p', state, i, rfl, hs, hid.trans hd', hi, hown, hagrees, hroot⟩, hstanding⟩
  registered p₁ hp₁ _ := by
    cases hp₁
    rw [hid]
    exact hrow

end

/-! ## What the installation asks for -/

theorem checkRange_eq_ok {field : String} {bytes bytes' : Bytes} {least most : ℕ} :
    checkRange field bytes least most = .ok bytes' ↔
      (least ≤ bytes.length ∧ bytes.length ≤ most) ∧ bytes' = bytes := by
  rw [checkRange, Framing.ite_error_eq_ok, not_or, not_lt, not_lt, Except.ok.injEq,
    eq_comm (a := bytes)]

/-- What the handler asks of a registration. -/
structure Install.Admits (install : Install σ) (deviceLabel : String)
    (m : RegistrationMaterial) : Prop where
  label : Text.trim deviceLabel ≠ "" ∧ (Text.trim deviceLabel).utf8ByteSize ≤ 128
  rootPublicKey : 1 ≤ m.rootPublicKey.length ∧ m.rootPublicKey.length ≤ 4096
  rootFingerprint : 16 ≤ m.rootFingerprint.length ∧ m.rootFingerprint.length ≤ 128
  credential : 1 ≤ m.credential.length ∧ m.credential.length ≤ 65536
  credentialFingerprint : 16 ≤ m.credentialFingerprint.length ∧ m.credentialFingerprint.length ≤ 128
  approvalPublicKey : 32 ≤ m.approvalPublicKey.length ∧ m.approvalPublicKey.length ≤ 32
  verifyingKey : install.verifyingKey m.approvalPublicKey = true
  version : ∀ t, trimmedText install.clientVersion = some t → t.utf8ByteSize ≤ 64

variable {input : RegisterDeviceInput}

/-- What the handler makes of a registration. -/
theorem registerMlsDevice_eq_ok {deviceId : Uuid} {deviceLabel : String}
    {m : RegistrationMaterial} :
    registerMlsDevice install.verifyingKey install.clientVersion deviceId deviceLabel m
      = .ok input ↔
        install.Admits deviceLabel m ∧ input = install.input deviceId deviceLabel m := by
  have hversion : ¬ ((trimmedText install.clientVersion).any fun version =>
      decide (64 < version.utf8ByteSize)) = true ↔
        ∀ t, trimmedText install.clientVersion = some t → t.utf8ByteSize ≤ 64 := by
    cases trimmedText install.clientVersion <;> simp
  simp only [registerMlsDevice, Framing.ite_error_eq_ok, Framing.bind_eq_ok, checkRange_eq_ok,
    hversion, not_or, not_lt, Bool.not_eq_false, Except.ok.injEq]
  constructor
  · rintro ⟨hlabel, _, ⟨hroot, rfl⟩, _, ⟨hfingerprint, rfl⟩, _, ⟨hcredential, rfl⟩,
      _, ⟨hprint, rfl⟩, _, ⟨happroval, rfl⟩, hkey, hversion, rfl⟩
    exact ⟨⟨hlabel, hroot, hfingerprint, hcredential, hprint, happroval, hkey, hversion⟩, rfl⟩
  · rintro ⟨h, rfl⟩
    exact ⟨h.label, _, ⟨h.rootPublicKey, rfl⟩, _, ⟨h.rootFingerprint, rfl⟩, _, ⟨h.credential, rfl⟩,
      _, ⟨h.credentialFingerprint, rfl⟩, _, ⟨h.approvalPublicKey, rfl⟩, h.verifyingKey, h.version,
      rfl⟩

section

variable {w : World σ Server}

variable {input : RegisterDeviceInput}

theorem device_agrees_iff {x : Device} :
    x.agrees input = true ↔ x.deviceLabel = input.deviceLabel ∧ x.credential = input.credential ∧
      x.credentialFingerprint = input.credentialFingerprint ∧
      x.approvalPublicKey = some input.approvalPublicKey ∧
      x.protocolVersion = input.protocolVersion := by
  simp [Device.agrees, and_assoc]

theorem identity_agrees_iff {i : AccountIdentity} :
    i.agrees input = true ↔ i.rootPublicKey = input.rootPublicKey ∧
      i.rootFingerprint = input.rootFingerprint ∧ i.protocolVersion = input.protocolVersion := by
  simp [AccountIdentity.agrees, and_assoc]

theorem agrees_device (input : RegisterDeviceInput) (userId : Uuid) (firstDevice : Bool)
    (now : Timestamp) : (input.device userId firstDevice now).agrees input = true := by
  simp [Device.agrees, RegisterDeviceInput.device]

theorem agrees_identity (input : RegisterDeviceInput) (userId : Uuid) (now : Timestamp) :
    (input.identity userId now).agrees input = true := by
  simp [AccountIdentity.agrees, RegisterDeviceInput.identity]

theorem Install.Lawful.genuine (hl : install.Lawful) {state : σ} (hs : install.sound state) :
    install.Genuine (install.material state).rootPublicKey
      (install.material state).rootFingerprint 1 :=
  ⟨(hl.formed hs).rootPublicKey, (hl.formed hs).rootFingerprint, rfl⟩

/-- The device of the installation is inserted. -/
theorem SetUp.inserted (h : SetUp install w) {p : DeviceProfile} {state : σ} {s : Server}
    {i : AccountIdentity} {firstDevice : Bool} {now : Timestamp}
    (hp : w.device.profile = some p) (hs : w.device.state = some state)
    (hdevices : s.db.devices = w.host.db.devices.insert
      ((install.input p.deviceId p.deviceLabel (install.material state)).device install.accountId
        firstDevice now))
    (hnew : w.host.db.devices.get p.deviceId = none) (hsettled : s.Settled)
    (hi : s.db.identities.get install.accountId = some i)
    (hroot : i.agrees (install.input p.deviceId p.deviceLabel (install.material state)) = true)
    (hgenuine : install.Genuine i.rootPublicKey i.rootFingerprint i.protocolVersion) :
    SetUp install { w with host := s } := by
  let x := (install.input p.deviceId p.deviceLabel (install.material state)).device
    install.accountId firstDevice now
  have hx : w.host.db.devices.get x.id = none := hnew
  have hget := get_devices_insert hx hdevices
  obtain ⟨hids, hlabel⟩ := h.profile p hp
  refine ⟨hsettled, fun j hj => ?_, fun z hz hu hprint => ?_, h.profile, h.state,
    fun d hd z hz => ?_, fun p' hp' hr => ?_⟩
  · cases hi.symm.trans hj
    exact hgenuine
  · rw [hdevices] at hz
    rcases Table.mem_insert hz with hz | rfl
    · exact h.prints z hz hu hprint
    · exact hids
  · rw [hget] at hz
    by_cases he : x.id = d
    · rw [if_pos he] at hz
      cases hz
      have hd' : p.deviceId = d := he
      subst hd'
      refine ⟨⟨p, state, i, hp, hs, rfl, hi, rfl, agrees_device .., hroot⟩, ?_⟩
      cases firstDevice <;> simp [x, RegisterDeviceInput.device]
    · rw [if_neg he] at hz
      obtain ⟨⟨p', _, _, hp', _, hd', _⟩, _⟩ := h.device d hd z hz
      cases hp.symm.trans hp'
      exact absurd hd' he
  · cases hp.symm.trans hp'
    obtain ⟨z, hz, _⟩ := h.registered p hp hr
    rw [hnew] at hz
    cases hz

/-- **The device registers** with what it has stored. -/
theorem SetUp.register (hl : install.Lawful) (h : SetUp install w) {p : DeviceProfile} {state : σ}
    (hp : w.device.profile = some p) (hs : w.device.state = some state)
    {out : Except AppError Response × Server} (hout : out = w.host.register install.accountId
      (install.input p.deviceId p.deviceLabel (install.material state))) :
    SetUp install { w with host := out.2 } ∧
      (install.Compatible w → install.Compatible { w with host := out.2 }) ∧
      ∀ d, out.1 = .ok (.device d) →
        Install.RowIs p.deviceId d.status { w with host := out.2 } := by
  let input := install.input p.deviceId p.deviceLabel (install.material state)
  have hsettled : out.2.Settled := by
    rw [hout, ← call_registerDevice]
    exact h.settled.call _
  have hcase : RegisterCase w.host install.accountId input out := by
    rw [hout]
    exact register_cases h.settled.owned
  have hagreed : ∀ i : AccountIdentity, i.agrees input = true →
      i.rootPublicKey = (install.material state).rootPublicKey := by
    exact fun i hi => (identity_agrees_iff.mp hi).1
  have hcompatible : ∀ {s : Server} {i : AccountIdentity}, i.agrees input = true →
      s.db.identities.get install.accountId = some i → install.Compatible { w with host := s } := by
    intro s i hi hget state' hs' j hj
    cases hs.symm.trans hs'
    cases hget.symm.trans hj
    exact hagreed i hi
  cases hcase with
  | refused err =>
    refine ⟨h, id, fun d hd => ?_⟩
    cases hd
  | found i d hi ha hd hu hagrees =>
    refine ⟨h, id, fun d' hd' => ?_⟩
    cases hd'
    refine ⟨d, hd, fun hp' => ?_⟩
    have hstanding := (h.device p.deviceId (h.profile p hp).1 d hd).2
    cases hd'' : d.status with
    | active => rfl
    | pendingApproval => exact absurd hd'' hp'
    | revoked => exact absurd hd'' hstanding
  | later i hi ha hd =>
    refine ⟨h.inserted hp hs rfl hd hsettled hi ha (h.genuine i hi), fun _ => hcompatible ha hi,
      fun d hd' => ?_⟩
    cases hd'
    have hrow : (w.host.db.devices.insert (input.device install.accountId false w.host.now)).get
        p.deviceId = some (input.device install.accountId false w.host.now) :=
      (Table.get_insert_of_none hd _).trans (if_pos rfl)
    exact ⟨_, hrow, fun hp' => absurd rfl hp'⟩
  | first hi hd =>
    have hroot : (w.host.db.identities.insert (input.identity install.accountId w.host.now)).get
        install.accountId = some (input.identity install.accountId w.host.now) :=
      (Table.get_insert_of_none hi _).trans (if_pos rfl)
    refine ⟨h.inserted hp hs rfl hd hsettled hroot (agrees_identity ..) ?_,
      fun _ => hcompatible (agrees_identity ..) hroot, fun d hd' => ?_⟩
    · exact hl.genuine (h.state state hs).2.1
    · cases hd'
      have hrow : (w.host.db.devices.insert (input.device install.accountId true w.host.now)).get
          p.deviceId = some (input.device install.accountId true w.host.now) :=
        (Table.get_insert_of_none hd _).trans (if_pos rfl)
      exact ⟨_, hrow, fun _ => rfl⟩

end

/-! ## One run -/

/-- The conditions under which a history is careful. -/
structure Conditions (install : Install σ) (careful : Prop)
    (C : World σ Server → Request → Prop) (K : World σ Server → Effect σ → Prop) : Prop where
  heeds : careful → ∀ w r, C w r → install.Heeds w r
  timely : careful → ∀ w e, K w e → install.Timely w e

theorem conditions_free : Conditions install False (fun _ _ => True) fun _ _ => True :=
  ⟨False.elim, False.elim⟩

theorem conditions_careful : Conditions install True install.Heeds install.Timely :=
  ⟨fun _ _ _ h => h, fun _ _ _ h => h⟩

/-- The invariant, and in a careful history the condition as well. -/
def Install.Holds (install : Install σ) (careful : Prop) (w : World σ Server) : Prop :=
  SetUp install w ∧ (careful → install.Compatible w)

/-- The invariant, with what is stored and what is known of the device at the server. -/
structure Held (install : Install σ) (careful : Prop) (s : DeviceStore σ)
    (row : Option (Uuid × DeviceStatus)) (w : World σ Server) : Prop where
  holds : install.Holds careful w
  stored : w.device = s
  row : ∀ x ∈ row, x.1 ∈ install.ids ∧ Install.RowIs x.1 x.2 w

section

variable {careful : Prop} {C : World σ Server → Request → Prop}
  {K : World σ Server → Effect σ → Prop} {α : Type} {w w' : World σ Server} {s : DeviceStore σ}
  {row : Option (Uuid × DeviceStatus)}

theorem Held.of_others (hc : Conditions install careful C K) (h : Held install careful s row w)
    (ho : install.Others C w w') : Held install careful s row w' := by
  obtain ⟨hsetup, hdevice, hu⟩ := h.holds.1.of_others ho
  refine ⟨⟨hsetup, fun hcareful => ?_⟩, hdevice.trans h.stored, fun x hx => ?_⟩
  · exact Compatible.of_others (h.holds.2 hcareful) h.holds.1 (hc.heeds hcareful) ho
  · obtain ⟨hids, hrow⟩ := h.row x hx
    have hrow' := hrow.of_leftAlone hu hids
    exact ⟨hids, hrow'⟩

/-- A run that keeps the invariant. -/
abbrev Install.Keeps (install : Install σ) (careful : Prop) (C : World σ Server → Request → Prop)
    (K : World σ Server → Effect σ → Prop) (Q : α → World σ Server → Prop) (p : Act σ α)
    (w : World σ Server) : Prop :=
  Action.Always (install.surroundings C K) (fun w _ => install.Holds careful w)
    (fun o w' => install.Holds careful w' ∧ ∀ a, o = .done a → Q a w') p w

variable {Q : α → World σ Server → Prop}

theorem keeps_await (hc : Conditions install careful C K) (h : Held install careful s row w)
    {e : Effect σ} {k : (clientEffects σ).Answer e → Act σ α}
    (hnext : ∀ w₁ r w', Held install careful s row w₁ → K w₁ e → install.host.env w₁ e r w' →
      install.Keeps careful C K Q (k r) w') : install.Keeps careful C K Q (.await e k) w :=
  always_among (fun _ _ h ho => h.of_others hc ho) h h.holds
    fun w₁ r w' h₁ he => hnext w₁ r w' h₁ he.1 he.2

theorem keeps_fail (h : install.Holds careful w) (err : ClientError) :
    install.Keeps careful C K Q (raise err) w :=
  ⟨h, fun _ hdone => by cases hdone⟩

theorem keeps_done (h : install.Holds careful w) {a : α} (ha : Q a w) :
    install.Keeps careful C K Q (pure a) w :=
  ⟨h, fun b hdone => by cases hdone; exact ha⟩

theorem keeps_bind {β : Type} {Q' : β → World σ Server → Prop} {p : Act σ α} {f : α → Act σ β}
    (hp : install.Keeps careful C K Q p w)
    (hf : ∀ a w', install.Holds careful w' → Q a w' → install.Keeps careful C K Q' (f a) w') :
    install.Keeps careful C K Q' (p >>= f) w :=
  hp.bind (fun a w' h => hf a w' h.1 (h.2 a rfl))
    (fun _ _ h => ⟨h.1, fun _ hdone => by cases hdone⟩)
    fun _ h => ⟨h.1, fun _ hdone => by cases hdone⟩

theorem keeps_store (hc : Conditions install careful C K) (h : Held install careful s row w)
    {e : StorageEffect σ} {f : e.Reply → Act σ α}
    (hnext : ∀ w₁, Held install careful s row w₁ → K w₁ (.storage e) →
      install.Keeps careful C K Q (f (s.perform e).1) { w₁ with device := (s.perform e).2 }) :
    install.Keeps careful C K Q (store e >>= f) w := by
  refine keeps_await hc h fun w₁ r w' h₁ hK he => ?_
  obtain ⟨rfl, rfl⟩ := he
  rw [h₁.stored]
  exact hnext w₁ h₁ hK

variable {e : RemoteEffect σ}

theorem keeps_remote (hc : Conditions install careful C K) (h : Held install careful s row w)
    {f : e.Reply → Act σ α}
    (hstep : ∀ w₁ r s', Held install careful s row w₁ → install.host w₁.host e r s' →
      install.Holds careful { w₁ with host := s' })
    (hnext : ∀ w₁ a s', Held install careful s row w₁ → install.host w₁.host e (.ok a) s' →
      install.Holds careful { w₁ with host := s' } →
        install.Keeps careful C K Q (f a) { w₁ with host := s' }) :
    install.Keeps careful C K Q (remote e >>= f) w := by
  refine keeps_await hc h fun w₁ r w' h₁ _ he => ?_
  obtain ⟨s', hr, rfl⟩ := he
  cases r with
  | ok a => exact hnext w₁ a s' h₁ hr (hstep w₁ _ s' h₁ hr)
  | error err => exact keeps_fail (hstep w₁ _ s' h₁ hr) err

/-- The effects that leave the server as it is. -/
def RemoteEffect.Idle : RemoteEffect σ → Prop
  | .core _ | .newId | .now | .api (.fetchRootIdentity _) | .api .listDevices => True
  | _ => False

variable {s' : Server}

theorem host_idle {r : Answer e} {s : Server} (he : e.Idle) (h : install.host s e r s') :
    s' = s := by
  cases e with
  | api e =>
    cases e with
    | fetchRootIdentity | listDevices =>
      rcases h with h | ⟨_, _, _, h | ⟨_, h⟩⟩
      · exact h.1
      · exact h
      · exact h.1
    | _ => cases he
  | _ => exact h.2

/-- An effect that leaves the server as it is. -/
theorem keeps_idle (hc : Conditions install careful C K) (h : Held install careful s row w)
    (hidle : e.Idle) {f : e.Reply → Act σ α}
    (hnext : ∀ w₁ a, Held install careful s row w₁ → install.host w₁.host e (.ok a) w₁.host →
      install.Keeps careful C K Q (f a) w₁) :
    install.Keeps careful C K Q (remote e >>= f) w := by
  refine keeps_remote hc h (fun w₁ r s' h₁ hr => ?_) fun w₁ a s' h₁ hr _ => ?_
  · rw [host_idle hidle hr]
    exact h₁.holds
  · obtain rfl := host_idle hidle hr
    exact hnext w₁ a h₁ hr

/-! ### The parts of `ensureReady` -/

/-- The material is the one of the state, but for the key package. -/
def Install.MaterialOf (install : Install σ) (m : RegistrationMaterial) (state : σ) : Prop :=
  { m with keyPackage := [] } = install.material state

theorem held_of_holds (h : install.Holds careful w) : Held install careful w.device none w :=
  ⟨h, rfl, fun _ hx => by cases hx⟩

variable {deviceLabel : String}

theorem ensureMaterial_keeps (hl : install.Lawful) (hc : Conditions install careful C K)
    (hlabel : AcceptedLabel deviceLabel) (h : install.Holds careful w) :
    install.Keeps careful C K
      (fun a w' => Stands a.1 a.2.1 w'.device ∧ install.MaterialOf a.2.2 a.2.1)
      (ensureMaterial install.accountId deviceLabel) w := by
  refine keeps_store hc (held_of_holds h) fun w₁ h₁ _ => ?_
  have hw₁ : ({ w₁ with device := w.device } : World σ Server) = w₁ := by rw [← h₁.stored]
  simp only [DeviceStore.perform, hw₁]
  refine keeps_store hc h₁ fun w₂ h₂ _ => ?_
  have hw₂ : ({ w₂ with device := w.device } : World σ Server) = w₂ := by rw [← h₂.stored]
  simp only [DeviceStore.perform, hw₂]
  cases hstate : w.device.state with
  | some state =>
    cases hprofile : w.device.profile with
    | none => exact keeps_fail h₂.holds _
    | some profile =>
      refine keeps_idle (e := .core (.publicMaterial state)) hc h₂ trivial
        fun w₃ restored h₃ hr => keeps_done h₃.holds ⟨?_, ?_⟩
      · rw [h₃.stored]
        exact ⟨hprofile, hstate⟩
      · have hrestored : restored.2 = install.material state := hl.publicMaterial hr.1
        have hsound := (h.1.state state hstate).2.1
        show ({ restored.2 with keyPackage := [] } : RegistrationMaterial) = _
        rw [hrestored, ← (hl.formed hsound).keyPackage]
  | none =>
    dsimp only
    split
    case isTrue => exact keeps_fail h₂.holds _
    case isFalse hregistered =>
      have hfetch : install.Keeps careful C K (fun _ w' => Held install careful w.device none w')
          (fetchRootPublicKey install.accountId) w₂ := by
        refine keeps_await hc h₂ fun w₃ r w' h₃ _ hr => ?_
        obtain ⟨s', hr, rfl⟩ := hr
        obtain rfl := host_idle (e := .api (.fetchRootIdentity install.accountId)) trivial hr
        cases r with
        | ok identity => exact keeps_done h₃.holds h₃
        | error err =>
          simp only [Action.attempt_fail, Action.bind]
          split
          case h_1 => exact keeps_done h₃.holds h₃
          case h_2 => exact keeps_done h₃.holds h₃
          case h_3 => exact keeps_fail h₃.holds _
      refine keeps_bind hfetch fun rootPublicKey w₃ _ h₃ => ?_
      have hprofile : install.Keeps careful C K (fun p w' => Held install careful w.device none w' ∧
          p.deviceId ∈ install.ids ∧ AcceptedLabel p.deviceLabel ∧ p.registered = false)
          (profileOrNew deviceLabel w.device.profile) w₃ := by
        cases hp : w.device.profile with
        | some p =>
          rw [hp] at hregistered
          obtain ⟨hids, hlabel⟩ := h.1.profile p hp
          exact keeps_done h₃.holds ⟨h₃, hids, hlabel, by simpa using hregistered⟩
        | none =>
          refine keeps_await hc h₃ fun w₄ r w' h₄ _ hr => ?_
          obtain ⟨s', ⟨⟨id, hid, rfl⟩, rfl⟩, rfl⟩ := hr
          exact keeps_done h₄.holds ⟨h₄, hid, hlabel, rfl⟩
      refine keeps_bind hprofile fun profile w₄ _ hprofile => ?_
      obtain ⟨h₄, hids, haccepted, hunregistered⟩ := hprofile
      refine keeps_store hc h₄ fun w₅ h₅ _ => ?_
      have hnone₅ : w₅.device.state = none := by rw [h₅.stored, hstate]
      have hset : install.Holds careful
          { w₅ with device := { w.device with profile := some profile } } := by
        rw [← h₅.stored]
        refine ⟨h₅.holds.1.newProfile hnone₅ hids haccepted hunregistered, fun _ state hs => ?_⟩
        rw [show w₅.device.state = some state from hs] at hnone₅
        cases hnone₅
      have hheld := held_of_holds hset
      refine keeps_idle (e := .core (.initializeWithRoot _ _)) hc hheld trivial
        fun w₆ made h₆ hr => ?_
      obtain ⟨hsound, hmaterial, -, hprint⟩ := hl.initialized hr.1
      refine keeps_store hc h₆ fun w₇ h₇ hK => ?_
      have hnone₇ : w₇.device.state = none := by
        rw [h₇.stored]
        exact hstate
      have hsome₇ : w₇.device.profile.isSome = true := by
        rw [h₇.stored]
        rfl
      refine keeps_done ⟨?_, fun hcareful state hs => ?_⟩ ⟨⟨rfl, rfl⟩, hmaterial⟩
      · have hprint' : (install.material made.1).credentialFingerprint ∈ install.prints := by
          rw [← hmaterial]
          exact hprint hids
        have := h₇.holds.1.newState hnone₇ hsome₇ hsound hprint'
        rwa [h₇.stored] at this
      · cases hs
        exact hc.timely hcareful _ _ hK hnone₇

variable {m : RegistrationMaterial}

/-- A registration is not carried out, or it is, and its answer may be lost. -/
theorem host_register {s : Server} {deviceId : Uuid} {r : Except ClientError DeviceStatus}
    (hr : install.host s (.api (.registerDevice deviceId deviceLabel m)) r s') :
    (s' = s ∧ ∃ err, r = .error err) ∨
      ∃ out, out = s.register install.accountId (install.input deviceId deviceLabel m) ∧
        s' = out.2 ∧
          ∀ status, r = .ok status → ∃ d, out.1 = .ok (.device d) ∧ d.status = status := by
  have hserves : ∀ {r : Except ClientError DeviceStatus},
      install.Serves s (.registerDevice deviceId deviceLabel m) r s' →
      (s' = s ∧ ∃ err, r = .error err) ∨
      ∃ out, out = s.register install.accountId (install.input deviceId deviceLabel m) ∧
        s' = out.2 ∧ ∀ status, r = .ok status →
          ∃ d, out.1 = .ok (.device d) ∧ d.status = status := by
    rintro r ⟨out, rfl, rfl, rfl⟩
    cases hreq : registerMlsDevice install.verifyingKey install.clientVersion deviceId deviceLabel
        m with
    | error err => exact Or.inl ⟨rfl, _, rfl⟩
    | ok input =>
      obtain ⟨-, rfl⟩ := registerMlsDevice_eq_ok.mp hreq
      refine Or.inr ⟨_, call_registerDevice, rfl, fun status hstatus => ?_⟩
      simp only [Except.map, Server.handle] at hstatus
      cases hout : (s.call (.registerDevice install.accountId
          (install.input deviceId deviceLabel m))).1 with
      | error err =>
        rw [hout] at hstatus
        cases hstatus
      | ok response =>
        rw [hout] at hstatus
        cases response with
        | device d => exact ⟨d, rfl, Except.ok.inj hstatus⟩
        | _ => cases hstatus
  rcases hr with hr | ⟨err, _, rfl, hr | ⟨answer, hr⟩⟩
  · exact hserves hr
  · exact Or.inl ⟨hr, err, rfl⟩
  · rcases hserves hr with ⟨hs, -⟩ | ⟨out, hout, hs, -⟩
    · exact Or.inl ⟨hs, err, rfl⟩
    · exact Or.inr ⟨out, hout, hs, fun _ h => by cases h⟩

/-- A publication leaves the devices as they are. -/
theorem host_publish {s : Server} (hs : s.Settled) {deviceId : Uuid} {keyPackages : List Bytes}
    {r : Except ClientError ℕ}
    (hr : install.host s (.api (.publishKeyPackages deviceId keyPackages)) r s') :
    s'.Settled ∧ LeftAlone install s.db s'.db ∧
      ∀ i, s'.db.identities.get install.accountId = some i →
        s.db.identities.get install.accountId = some i := by
  have hsame : s.Settled ∧ LeftAlone install s.db s.db ∧
      ∀ i, s.db.identities.get install.accountId = some i →
        s.db.identities.get install.accountId = some i :=
    ⟨hs, leftAlone_of_eq rfl rfl, fun _ h => h⟩
  have hserves : ∀ {r : Except ClientError ℕ},
      install.Serves s (.publishKeyPackages deviceId keyPackages) r s' →
        s'.Settled ∧ LeftAlone install s.db s'.db ∧
          ∀ i, s'.db.identities.get install.accountId = some i →
            s.db.identities.get install.accountId = some i := by
    rintro r ⟨packages, out, -, rfl, -, rfl⟩
    cases hreq : publishMlsKeyPackages s.now install.accountId deviceId packages with
    | error err => exact hsame
    | ok request =>
      obtain ⟨-, hreq⟩ := Framing.ite_error_eq_ok.mp hreq
      obtain ⟨_, -, hreq⟩ := Framing.bind_eq_ok.mp hreq
      cases hreq
      have hforeign : install.Foreign (.publishKeyPackages install.accountId deviceId packages) :=
        trivial
      refine ⟨hs.call _, hforeign.leftAlone hs, fun i hi => ?_⟩
      rcases hs.identity_of_call hi with hi | ⟨-, _, hreq, -⟩
      · exact hi
      · cases hreq
  rcases hr with hr | ⟨_, _, rfl, rfl | ⟨_, hr⟩⟩
  · exact hserves hr
  · exact hsame
  · exact hserves hr

variable {profile : DeviceProfile}

theorem ensureRegistered_keeps (hl : install.Lawful) (hc : Conditions install careful C K)
    {state : σ} (h : install.Holds careful w) (hstands : Stands profile state w.device)
    (hm : install.MaterialOf m state) :
    install.Keeps careful C K (fun p w' => Stands p state w'.device ∧ p.registered = true)
      (ensureRegistered profile m) w := by
  rw [ensureRegistered]
  split
  case isTrue hregistered => exact keeps_done h ⟨hstands, hregistered⟩
  case isFalse =>
    have hinput : install.input profile.deviceId profile.deviceLabel m
        = install.input profile.deviceId profile.deviceLabel (install.material state) := by
      rw [← show _ = _ from hm]
      rfl
    have hstep : ∀ {w₁ : World σ Server} {out : Except AppError Response × Server},
        Held install careful w.device none w₁ →
        out = w₁.host.register install.accountId
          (install.input profile.deviceId profile.deviceLabel m) →
        install.Holds careful { w₁ with host := out.2 } ∧ ∀ d, out.1 = .ok (.device d) →
          Install.RowIs profile.deviceId d.status { w₁ with host := out.2 } := by
      intro w₁ out h₁ hout
      rw [hinput] at hout
      have hprofile : w₁.device.profile = some profile := by rw [h₁.stored]; exact hstands.1
      have hstate : w₁.device.state = some state := by rw [h₁.stored]; exact hstands.2
      obtain ⟨hsetup, hcompatible, hrow⟩ := h₁.holds.1.register hl hprofile hstate hout
      exact ⟨⟨hsetup, fun hcareful => hcompatible (h₁.holds.2 hcareful)⟩, hrow⟩
    refine keeps_remote hc (held_of_holds h) (fun w₁ r s' h₁ hr => ?_)
      fun w₁ status s' h₁ hr _ => ?_
    · rcases host_register hr with ⟨rfl, -⟩ | ⟨out, hout, rfl, -⟩
      · exact h₁.holds
      · exact (hstep h₁ hout).1
    · rcases host_register hr with ⟨-, _, herr⟩ | ⟨out, hout, rfl, hstatus⟩
      · cases herr
      obtain ⟨d, hd, rfl⟩ := hstatus status rfl
      obtain ⟨hholds, hrow⟩ := hstep h₁ hout
      have hids := (h.1.profile profile hstands.1).1
      have hheld : Held install careful w.device (some (profile.deviceId, d.status))
          { w₁ with host := out.2 } :=
        ⟨hholds, h₁.stored, fun x hx => by cases hx; exact ⟨hids, hrow d hd⟩⟩
      refine keeps_store hc hheld fun w₂ h₂ _ => ?_
      obtain ⟨-, x, hx, hactive⟩ := h₂.row _ rfl
      refine keeps_done ⟨?_, h₂.stored ▸ h₂.holds.2⟩ ⟨⟨rfl, hstands.2⟩, by split <;> rfl⟩
      have hprofile₂ : w₂.device.profile = some profile := by rw [h₂.stored]; exact hstands.1
      rw [DeviceStore.perform, ← h₂.stored]
      refine h₂.holds.1.sameDevice hprofile₂ ?_ ?_ ⟨x, hx, fun hs => hactive fun hp => ?_⟩
      · split <;> rfl
      · split <;> rfl
      · have hp' : d.status = .pendingApproval := hp
        rw [if_pos hp'] at hs
        exact hs rfl

/-- A device that the listing shows as active is active. -/
theorem rowIs_of_listed {d : Uuid} {status : DeviceStatus}
    (h : ((w.host.db.listDevices install.accountId).find? fun x => x.1 = d).any (·.2 = .active)
      = true) : Install.RowIs d status w := by
  obtain ⟨entry, hfind, hactive⟩ := Option.any_eq_true _ _ |>.mp h
  obtain ⟨x, hx, rfl⟩ := List.mem_map.mp (List.mem_of_find?_eq_some hfind)
  have hid : x.id = d := by simpa using List.find?_some hfind
  exact ⟨x, hid ▸ Table.get_of_mem (List.mem_filter.mp hx).1, fun _ => by simpa using hactive⟩

theorem ensureApproved_keeps (hc : Conditions install careful C K) {state : σ}
    (h : install.Holds careful w) (hstands : Stands profile state w.device)
    (hregistered : profile.registered = true) :
    install.Keeps careful C K (fun p w' => Stands p state w'.device ∧ p.registered = true)
      (ensureApproved profile) w := by
  rw [ensureApproved]
  split
  case isFalse => exact keeps_done h ⟨hstands, hregistered⟩
  case isTrue =>
    refine keeps_idle (e := .api .listDevices) hc (held_of_holds h) trivial
      fun w₁ devices h₁ hr => ?_
    have hdevices : devices = w₁.host.db.listDevices install.accountId := by
      rcases hr with ⟨-, hr⟩ | ⟨_, _, hr, _⟩
      · exact Except.ok.inj hr
      · cases hr
    split
    case isFalse => exact keeps_done h₁.holds ⟨h₁.stored ▸ hstands, hregistered⟩
    case isTrue hlisted =>
      rw [hdevices] at hlisted
      have hids := (h.1.profile profile hstands.1).1
      have hheld : Held install careful w.device (some (profile.deviceId, .active)) w₁ :=
        ⟨h₁.holds, h₁.stored, fun x hx => by cases hx; exact ⟨hids, rowIs_of_listed hlisted⟩⟩
      refine keeps_store hc hheld fun w₂ h₂ _ => ?_
      refine keeps_done ⟨?_, h₂.stored ▸ h₂.holds.2⟩ ⟨⟨rfl, hstands.2⟩, hregistered⟩
      have hprofile₂ : w₂.device.profile = some profile := by rw [h₂.stored]; exact hstands.1
      rw [DeviceStore.perform, ← h₂.stored]
      exact h₂.holds.1.sameDevice hprofile₂ rfl rfl (h₂.row _ rfl).2

theorem ensurePublished_keeps (hl : install.Lawful) (hc : Conditions install careful C K)
    {state : σ} (h : install.Holds careful w) (hstands : Stands profile state w.device)
    (hregistered : profile.registered = true) :
    install.Keeps careful C K (fun _ _ => True) (ensurePublished profile state) w := by
  rw [ensurePublished]
  split
  case isFalse => exact keeps_done h trivial
  case isTrue hactive =>
    have hids := (h.1.profile profile hstands.1).1
    have hrow : Install.RowIs profile.deviceId .active w := by
      obtain ⟨x, hx, hx'⟩ := h.1.registered profile hstands.1 hregistered
      exact ⟨x, hx, fun _ => hx' hactive.1⟩
    have hheld : Held install careful w.device (some (profile.deviceId, .active)) w :=
      ⟨h, rfl, fun x hx => by cases hx; exact ⟨hids, hrow⟩⟩
    refine keeps_idle (e := .core (.generateKeyPackage state)) hc hheld trivial
      fun w₁ generated h₁ hr => ?_
    obtain ⟨hsound, hmaterial⟩ := hl.generateKeyPackage (h.1.state state hstands.2).2.1 hr.1
    refine keeps_store hc h₁ fun w₂ h₂ _ => ?_
    have hset : install.Holds careful
        { w₂ with device := { w.device with state := some generated.1 } } := by
      rw [← h₂.stored]
      refine ⟨h₂.holds.1.sameMaterial (h₂.stored ▸ hstands.2) hsound hmaterial,
        fun hcareful state' hs => ?_⟩
      cases hs
      intro i hi
      rw [hmaterial]
      exact h₂.holds.2 hcareful state (h₂.stored ▸ hstands.2) i hi
    have hheld₂ : Held install careful { w.device with state := some generated.1 }
        (some (profile.deviceId, .active))
        { w₂ with device := { w.device with state := some generated.1 } } :=
      ⟨hset, rfl, fun x hx => h₂.row x hx⟩
    have hpublish : ∀ {w₃ : World σ Server} {r : Except ClientError ℕ} {s' : Server},
        Held install careful { w.device with state := some generated.1 }
          (some (profile.deviceId, .active)) w₃ →
        install.host w₃.host (.api (.publishKeyPackages profile.deviceId [generated.2])) r s' →
        Held install careful { w.device with state := some generated.1 }
          (some (profile.deviceId, .active)) { w₃ with host := s' } := by
      intro w₃ r s' h₃ hr
      obtain ⟨hsettled, hu, hidentity⟩ := host_publish h₃.holds.1.settled hr
      refine ⟨⟨h₃.holds.1.of_leftAlone hsettled hu, fun hcareful state' hs i hi => ?_⟩,
        h₃.stored, fun x hx => ?_⟩
      · exact h₃.holds.2 hcareful state' hs i (hidentity i hi)
      · obtain ⟨hids, hrow⟩ := h₃.row x hx
        exact ⟨hids, hrow.of_leftAlone hu hids⟩
    refine keeps_remote hc hheld₂ (fun w₃ r s' h₃ hr => (hpublish h₃ hr).holds)
      fun w₃ inserted s' h₃ hr _ => ?_
    refine keeps_store hc (hpublish h₃ hr) fun w₄ h₄ _ => ?_
    refine keeps_done ⟨?_, h₄.stored ▸ h₄.holds.2⟩ trivial
    have hprofile₄ : w₄.device.profile = some profile := by rw [h₄.stored]; exact hstands.1
    rw [DeviceStore.perform, ← h₄.stored]
    exact h₄.holds.1.sameDevice hprofile₄ rfl rfl (h₄.row _ rfl).2

/-- **Every run of `ensureReady`** keeps the invariant, and a careful one the condition. -/
theorem ensureReady_keeps (hl : install.Lawful) (hc : Conditions install careful C K)
    (hlabel : AcceptedLabel deviceLabel) (h : install.Holds careful w) :
    install.Keeps careful C K (fun _ _ => True) (ensureReady install.accountId deviceLabel) w := by
  refine keeps_bind (ensureMaterial_keeps hl hc hlabel h) fun material w₁ h₁ hmaterial => ?_
  refine keeps_bind (ensureRegistered_keeps hl hc h₁ hmaterial.1 hmaterial.2)
    fun profile w₂ h₂ hprofile => ?_
  split
  case isTrue => exact keeps_done h₂ trivial
  case isFalse =>
    refine keeps_bind (ensureApproved_keeps hc h₂ hprofile.1 hprofile.2)
      fun approved w₃ h₃ happroved => ?_
    exact ensurePublished_keeps hl hc h₃ happroved.1 happroved.2

end

/-! ## Histories -/

/-- A careful history: whoever gives the account its root identity, gives it the one of the
state that is stored here, and a state that is stored first has the one of the account. -/
abbrev Install.CarefulHistory (install : Install σ) : World σ Server → World σ Server → Prop :=
  install.HistoryUnder install.Heeds install.Timely

/-- **Every history keeps the invariant**, and a careful one the condition. -/
theorem holds_of_history (hl : install.Lawful) {careful : Prop}
    {C : World σ Server → Request → Prop} {K : World σ Server → Effect σ → Prop}
    (hc : Conditions install careful C K) (h : install.HistoryUnder C K w w')
    (hw : install.Holds careful w) :
    install.Holds careful w' := by
  refine h.holds (fun w₁ w₂ h₁ ho => ?_) (fun p w₁ hp h₁ => ?_) hw
  · exact ((held_of_holds h₁).of_others hc ho).holds
  · obtain ⟨deviceLabel, hlabel, rfl⟩ := hp
    exact (ensureReady_keeps hl hc hlabel h₁).imp fun _ _ h => h.1

theorem setUp_of_history (hl : install.Lawful) (h : install.History w w') (hw : SetUp install w) :
    SetUp install w' :=
  (holds_of_history hl conditions_free h ⟨hw, False.elim⟩).1

theorem compatible_of_history (hl : install.Lawful) (h : install.CarefulHistory w w')
    (hw : SetUp install w) (hcompatible : install.Compatible w) :
    install.Compatible w' :=
  (holds_of_history hl conditions_careful h ⟨hw, fun _ => hcompatible⟩).2 trivial

/-! ### What stays -/

/-- The identity of the account and the device of the installation stay what they are. -/
structure Kept (install : Install σ) (w w' : World σ Server) : Prop where
  identity : ∀ i, w.host.db.identities.get install.accountId = some i →
    w'.host.db.identities.get install.accountId = some i
  device : ∀ d ∈ install.ids, ∀ x, w.host.db.devices.get d = some x →
    ∃ x', w'.host.db.devices.get d = some x' ∧ SameDevice x x'

theorem LeftAlone.kept {w w' : World σ Server} (h : LeftAlone install w.host.db w'.host.db) :
    Kept install w w' :=
  ⟨h.identity, h.device⟩

theorem Kept.refl (w : World σ Server) : Kept install w w :=
  (leftAlone_of_eq rfl rfl).kept

theorem Kept.trans {w'' : World σ Server} (h : Kept install w w') (h' : Kept install w' w'') :
    Kept install w w'' := by
  refine ⟨fun i hi => h'.identity i (h.identity i hi), fun d hd x hx => ?_⟩
  obtain ⟨x', hx', hsame⟩ := h.device d hd x hx
  obtain ⟨x'', hx'', hsame'⟩ := h'.device d hd x' hx'
  exact ⟨x'', hx'', hsame.trans hsame'⟩

theorem kept_of_register {userId : Uuid} {out : Except AppError Response × Server}
    (h : RegisterCase w.host userId input out) :
    Kept install w { w with host := out.2 } := by
  cases h with
  | later i hi ha hd =>
    exact ⟨fun _ h => h, fun d _ x hx => ⟨x, Table.get_insert_of_get hx, .refl x⟩⟩
  | first hi hd =>
    exact ⟨fun i h => Table.get_insert_of_get h,
      fun d _ x hx => ⟨x, Table.get_insert_of_get hx, .refl x⟩⟩
  | _ => exact .refl w

theorem host_kept (h : SetUp install w) {e : RemoteEffect σ} {r : Answer e} {s' : Server}
    (hr : install.host w.host e r s') : Kept install w { w with host := s' } := by
  have hidle : e.Idle → Kept install w { w with host := s' } := fun he => by
    rw [host_idle he hr]
    exact .refl w
  cases e with
  | api e =>
    cases e with
    | fetchRootIdentity | listDevices => exact hidle trivial
    | registerDevice deviceId deviceLabel m =>
      rcases host_register hr with ⟨rfl, -⟩ | ⟨out, rfl, rfl, -⟩
      · exact .refl w
      · exact kept_of_register (register_cases h.settled.owned)
    | publishKeyPackages deviceId keyPackages => exact (host_publish h.settled hr).2.1.kept
    | _ =>
      rcases hr with hr | ⟨_, _, _, hr | ⟨_, hr⟩⟩
      · cases hr
      · rw [hr]
        exact .refl w
      · cases hr
  | _ => exact hidle trivial

theorem kept_of_history (hl : install.Lawful) (h : install.History w w') (hw : SetUp install w) :
    Kept install w w' := by
  refine h.keeps (I := SetUp install) Kept.refl Kept.trans (fun w₁ w₂ h₁ ho => ?_)
    (fun w₁ e r w₂ h₁ he => ?_) (fun p w₁ hp h₁ => ?_) hw
  · obtain ⟨hsetup, -, hu⟩ := h₁.of_others ho
    exact ⟨hsetup, hu.kept⟩
  · cases e with
    | storage e =>
      obtain ⟨-, rfl, rfl⟩ := he
      exact ⟨fun _ h => h, fun _ _ x h => ⟨x, h, .refl x⟩⟩
    | remote e =>
      obtain ⟨-, s', hr, rfl⟩ := he
      exact host_kept h₁ hr
  · obtain ⟨deviceLabel, hlabel, rfl⟩ := hp
    exact (ensureReady_keeps hl conditions_free hlabel ⟨h₁, False.elim⟩).mono
      (fun _ _ h => h.1) fun _ _ h => h.1.1

end RedcodeIm
