import RedcodeIm.Coordinator.SetupInvariant

/-!
# Whether a set-up can be completed

What can go wrong is that another device gives the account its root identity after this one was
told that there is none, and before it has registered: from then on no run of `ensureReady`
succeeds.

* `Doomed` — no later run succeeds.
* `Stuck` — what keeps one from succeeding.
* `completeSetUp_finishes`, `ensureReady_finishes` — the runs that do succeed.
* `device_setup` — one device for each installation, and just when a set-up can be completed.
-/

namespace RedcodeIm

open Awaiting Restarts Relation Sample AccountIdentity Action

variable {σ : Type} {install : Install σ}

/-! ## When no run succeeds -/

/-- No later run of `ensureReady` succeeds, whatever happens before it. -/
def Install.Doomed (install : Install σ) (w : World σ Server) : Prop :=
  ∀ w₁ p events o w₂, install.History w w₁ → install.Calls p →
    Action.Run (install.surroundings (fun _ _ => True) fun _ _ => True) p w₁ events
      (ended o) w₂ → ∃ err, o = .fail err

/-- The state has another root key than the account, and the device is not registered. -/
structure Stuck (install : Install σ) (p : DeviceProfile) (state : σ) (i : AccountIdentity)
    (w : World σ Server) : Prop where
  setUp : SetUp install w
  stands : Stands p state w.device
  unregistered : p.registered = false
  identity : w.host.db.identities.get install.accountId = some i
  differs : i.rootPublicKey ≠ (install.material state).rootPublicKey

section

variable {p : DeviceProfile} {state : σ} {i : AccountIdentity} {w w' : World σ Server}

theorem Stuck.of_others {C : World σ Server → Request → Prop} (h : Stuck install p state i w)
    (ho : install.Others C w w') : Stuck install p state i w' := by
  obtain ⟨hsetup, hdevice, hu⟩ := h.setUp.of_others ho
  refine ⟨hsetup, ?_, h.unregistered, hu.identity i h.identity, h.differs⟩
  rw [hdevice]
  exact h.stands

/-- A device whose state does not fit the account has not registered. -/
theorem stuck_of_not_compatible (h : SetUp install w) (hnot : ¬ install.Compatible w) :
    ∃ p state i, Stuck install p state i w := by
  simp only [Install.Compatible, Install.Agreed, not_forall] at hnot
  obtain ⟨state, hstate, i, hi, hne⟩ := hnot
  obtain ⟨p, hp⟩ := Option.isSome_iff_exists.mp (h.state state hstate).1
  refine ⟨p, state, i, h, ⟨hp, hstate⟩, ?_, hi, hne⟩
  by_contra hregistered
  rw [Bool.not_eq_false] at hregistered
  obtain ⟨x, hx, -⟩ := h.registered p hp hregistered
  obtain ⟨⟨_, state', i', _, hstate', _, hi', _, _, hagrees⟩, -⟩ :=
    h.device _ (h.profile p hp).1 x hx
  cases hstate.symm.trans hstate'
  cases hi.symm.trans hi'
  exact hne (identity_agrees_iff.mp hagrees).1

/-- The account refuses it. -/
theorem Stuck.register (h : Stuck install p state i w) {deviceId : Uuid} {deviceLabel : String} :
    w.host.register install.accountId (install.input deviceId deviceLabel (install.material state))
      = (.error (.messageRuntimeConflict "账号根身份与已登记身份不一致"), w.host) := by
  have hagrees : i.agrees (install.input deviceId deviceLabel (install.material state)) ≠ true := by
    exact fun hagrees => h.differs (identity_agrees_iff.mp hagrees).1
  simp only [Server.register, h.identity]
  rw [if_neg hagrees]

theorem always_stuck {e : Effect σ} {α : Type} {k : (clientEffects σ).Answer e → Act σ α}
    {Q : Outcome (clientEffects σ) α → World σ Server → Prop} (h : Stuck install p state i w)
    (hnext : ∀ w₁ r w', Stuck install p state i w₁ → install.host.env w₁ e r w' →
      Action.Always (install.surroundings (fun _ _ => True) fun _ _ => True)
        (fun w _ => Stuck install p state i w) Q (k r) w') :
    Action.Always (install.surroundings (fun _ _ => True) fun _ _ => True)
      (fun w _ => Stuck install p state i w) Q (.await e k) w :=
  always_among (fun _ _ h ho => h.of_others ho) h h fun w₁ r w' h₁ he => hnext w₁ r w' h₁ he.2

/-- **Every run from there fails**, and leads there again. -/
theorem ensureReady_stuck (hl : install.Lawful) (h : Stuck install p state i w)
    (deviceLabel : String) :
    Action.Always (install.surroundings (fun _ _ => True) fun _ _ => True)
      (fun w _ => Stuck install p state i w)
      (fun o w' => Stuck install p state i w' ∧ ∃ err, o = .fail err)
      (ensureReady install.accountId deviceLabel) w := by
  refine always_stuck h fun w₁ r w₁' h₁ he => ?_
  obtain ⟨rfl, rfl⟩ := he
  refine always_stuck h₁ fun w₂ r w₂' h₂ he => ?_
  obtain ⟨rfl, rfl⟩ := he
  simp only [DeviceStore.perform, h₁.stands.2, h₂.stands.1]
  refine always_stuck h₂ fun w₃ r w₃' h₃ he => ?_
  obtain ⟨s', ⟨hcore, rfl⟩, rfl⟩ := he
  cases r with
  | error err => exact ⟨h₃, err, rfl⟩
  | ok restored =>
    have hrestored : restored.2 = install.material state := hl.publicMaterial hcore
    show Action.Always _ _ _ (ensureRegistered p restored.2 >>= _) _
    rw [ensureRegistered, if_neg (by rw [h.unregistered]; exact Bool.false_ne_true), hrestored]
    refine always_stuck h₃ fun w₄ r w₄' h₄ he => ?_
    obtain ⟨s', hr, rfl⟩ := he
    rcases host_register hr with ⟨rfl, err, rfl⟩ | ⟨out, hout, rfl, hstatus⟩
    · exact ⟨h₄, err, rfl⟩
    · rw [h₄.register] at hout
      subst hout
      cases r with
      | error err => exact ⟨h₄, err, rfl⟩
      | ok status =>
        obtain ⟨d, hd, -⟩ := hstatus status rfl
        cases hd

theorem stuck_of_history (hl : install.Lawful) (h : Stuck install p state i w)
    (hw : install.History w w') : Stuck install p state i w' := by
  refine hw.holds (fun w₁ w₂ h₁ ho => h₁.of_others ho) (fun q w₁ hq h₁ => ?_) h
  obtain ⟨deviceLabel, -, rfl⟩ := hq
  exact (ensureReady_stuck hl h₁ deviceLabel).imp fun _ _ h => h.1

theorem Stuck.doomed (hl : install.Lawful) (h : Stuck install p state i w) : install.Doomed w := by
  rintro w₁ q events o w₂ hw ⟨deviceLabel, -, rfl⟩ hrun
  exact ((ensureReady_stuck hl (stuck_of_history hl h hw) deviceLabel).ends hrun).2

end

/-! ## When a run succeeds -/

/-- The program can come to its end. -/
def Install.Finishes {α : Type} (install : Install σ) (p : Act σ α) (w : World σ Server) : Prop :=
  ∃ events a w', Action.Run (install.surroundings (fun _ _ => True) fun _ _ => True) p w events
    (.done a) w'

section

variable {α : Type} {w : World σ Server} {p : DeviceProfile} {state : σ}

theorem finishes_await {e : Effect σ} {k : (clientEffects σ).Answer e → Act σ α}
    {r : (clientEffects σ).Answer e} {w' : World σ Server} (he : install.host.env w e r w')
    (h : install.Finishes (k r) w') : install.Finishes (.await e k) w := by
  obtain ⟨events, a, w'', hrun⟩ := h
  exact ⟨⟨e, r⟩ :: events, a, w'', .step (among_self ⟨trivial, he⟩) hrun⟩

theorem finishes_store {e : StorageEffect σ} {f : e.Reply → Act σ α}
    (h : install.Finishes (f (w.device.perform e).1) { w with device := (w.device.perform e).2 }) :
    install.Finishes (store e >>= f) w :=
  finishes_await (r := .ok _) ⟨rfl, rfl⟩ h

theorem finishes_remote {e : RemoteEffect σ} {f : e.Reply → Act σ α} {a : e.Reply} {s' : Server}
    (hr : install.host w.host e (.ok a) s') (h : install.Finishes (f a) { w with host := s' }) :
    install.Finishes (remote e >>= f) w :=
  finishes_await (r := .ok a) ⟨s', hr, rfl⟩ h

theorem finishes_done (a : α) : install.Finishes (pure a) w := ⟨[], a, w, .refl _ _⟩

/-- An active device gets its key package published. -/
theorem ensurePublished_finishes (hl : install.Lawful) (h : SetUp install w)
    (hstands : Stands p state w.device) (hregistered : p.registered = true)
    (hexpired : w.host.Expired) : install.Finishes (ensurePublished p state) w := by
  rw [ensurePublished]
  split
  case isFalse => exact finishes_done _
  case isTrue hactive =>
    obtain ⟨x, hx, hx'⟩ := h.registered p hstands.1 hregistered
    obtain ⟨⟨_, _, _, _, _, _, _, howner, hagrees, _⟩, _⟩ :=
      h.device p.deviceId (h.profile p hstands.1).1 x hx
    have hversion : x.protocolVersion = 1 := (device_agrees_iff.mp hagrees).2.2.2.2
    obtain ⟨generated, hgenerated, hleast, hmost⟩ := hl.generates (h.state state hstands.2).2.1
    obtain ⟨id, hid⟩ := exists_fresh_keyPackage w.host.db
    let package : NewKeyPackage :=
      { id := id, packageRef := install.digest generated.2, keyPackage := generated.2
        protocolVersion := 1, expiresAt := w.host.now + 1 }
    have hcheck : publishMlsKeyPackages w.host.now install.accountId p.deviceId [package]
        = .ok (.publishKeyPackages install.accountId p.deviceId [package]) := by
      have hpackage : checkKeyPackage w.host.now package = .ok () := by
        refine Framing.ite_error_eq_ok.mpr ⟨not_not.mpr rfl, Framing.ite_error_eq_ok.mpr ⟨?_, ?_⟩⟩
        · rw [not_or, not_le, not_lt]
          exact ⟨Nat.lt_succ_self _, Nat.add_le_add_left (by decide) _⟩
        · have hdigest := hl.digest generated.2
          exact Framing.bind_eq_ok.mpr ⟨_, checkRange_eq_ok.mpr
            ⟨⟨by rw [hdigest]; decide, by rw [hdigest]; decide⟩, rfl⟩, Framing.bind_eq_ok.mpr
              ⟨_, checkRange_eq_ok.mpr ⟨⟨hleast, hmost⟩, rfl⟩, rfl⟩⟩
      refine Framing.ite_error_eq_ok.mpr ⟨?_, Framing.bind_eq_ok.mpr ⟨(), ?_, rfl⟩⟩
      · rw [not_or, not_lt]
        exact ⟨List.cons_ne_nil _ _, show 1 ≤ maxKeyPackagesPerRequest by decide⟩
      · exact Framing.bind_eq_ok.mpr ⟨(), hpackage, rfl⟩
    have hrow : w.host.db.userDevice install.accountId p.deviceId = some x := by
      simp only [Db.userDevice, hx]
      rw [if_pos howner]
    have hchecks : (package.row p.deviceId w.host.now).checks = true := by
      have hdigest := hl.digest generated.2
      simp [KeyPackage.checks, NewKeyPackage.row, package, hdigest, hleast, hmost]
    obtain ⟨n, hn⟩ := call_publish_one hrow (hx' hactive.1) hversion.symm hchecks hid hexpired
    have hgenerate :
        install.host w.host (.core (.generateKeyPackage state)) (.ok generated) w.host :=
      ⟨hgenerated, rfl⟩
    have hpublish : install.host w.host (.api (.publishKeyPackages p.deviceId [generated.2]))
        (.ok n)
        (w.host.call (.publishKeyPackages install.accountId p.deviceId [package])).2 := by
      refine Or.inl ⟨[package], _, .cons ⟨rfl, rfl, rfl⟩ .nil, rfl, ?_, ?_⟩
      · rw [hcheck, Server.handle, hn]
        rfl
      · rw [hcheck]
        rfl
    exact finishes_remote hgenerate (finishes_store (finishes_remote hpublish
      (finishes_store (finishes_done _))))

theorem ensureApproved_finishes (hl : install.Lawful) (h : SetUp install w)
    (hstands : Stands p state w.device) (hregistered : p.registered = true)
    (hexpired : w.host.Expired) :
    install.Finishes (ensureApproved p >>= fun approved => ensurePublished approved state) w := by
  rw [ensureApproved]
  split
  case isFalse => exact ensurePublished_finishes hl h hstands hregistered hexpired
  case isTrue =>
    rw [bind_assoc]
    have hlist : install.host w.host (.api .listDevices)
        (.ok (w.host.db.listDevices install.accountId)) w.host := Or.inl ⟨rfl, rfl⟩
    refine finishes_remote hlist ?_
    split
    case isFalse => exact ensurePublished_finishes hl h hstands hregistered hexpired
    case isTrue hlisted =>
      rw [bind_assoc]
      refine finishes_store ?_
      have hset : SetUp install { w with device :=
          { w.device with profile := some { p with deviceStatus := .active } } } :=
        h.sameDevice hstands.1 rfl rfl (rowIs_of_listed hlisted)
      exact ensurePublished_finishes hl hset ⟨rfl, hstands.2⟩ hregistered hexpired

/-- A device that fits the account is registered. -/
theorem SetUp.register_succeeds (hl : install.Lawful) (h : SetUp install w)
    (hcompatible : install.Compatible w) (hstands : Stands p state w.device) :
    ∃ d, (w.host.register install.accountId
      (install.input p.deviceId p.deviceLabel (install.material state))).1 = .ok (.device d) := by
  let input := install.input p.deviceId p.deviceLabel (install.material state)
  obtain ⟨hids, hlabel⟩ := h.profile p hstands.1
  obtain ⟨-, hsound, hprint⟩ := h.state state hstands.2
  have hformed := hl.formed hsound
  have hdigest : (install.material state).rootFingerprint.length = 32 := by
    rw [hformed.rootFingerprint]
    exact hl.digest _
  have hrow : ∀ firstDevice opening,
      ∃ d, (w.host.registerRow install.accountId input firstDevice opening).1
        = .ok (.device d) := by
    intro firstDevice opening
    rw [Server.registerRow]
    cases hd : w.host.db.devices.get input.deviceId with
    | some d =>
      obtain ⟨⟨p', state', _, hp', hs', _, _, howner, hagrees, _⟩, _⟩ := h.device _ hids d hd
      cases hstands.1.symm.trans hp'
      cases hstands.2.symm.trans hs'
      have hagrees' : d.agrees input = true := hagrees
      exact ⟨d, by simp [howner, hagrees']⟩
    | none =>
      have hchecks : (input.device install.accountId firstDevice w.host.now).checks = true := by
        have hversion : (trimmedText install.clientVersion).all (fun t => notBlank t
            && decide (t.length ≤ 64)) = true := by
          cases ht : trimmedText install.clientVersion with
          | none => rfl
          | some t => simp [hl.version t ht]
        simp only [Device.checks, RegisterDeviceInput.device, input, Install.input, hlabel.stored,
          hformed.credential, hformed.credentialFingerprint, hformed.approvalPublicKey, hversion,
          Option.all_some]
        decide
      have hunique : w.host.db.deviceUnique
          (input.device install.accountId firstDevice w.host.now) = true := by
        refine List.all_eq_true.mpr fun x hx => ?_
        have hid : x.id ≠ p.deviceId := fun he => Table.get_eq_none_iff.mp hd x hx he
        have hother : ¬ (x.userId = install.accountId ∧
            x.credentialFingerprint = (install.material state).credentialFingerprint) := by
          rintro ⟨howner, hsame⟩
          -- another device with the credential of this one is a device of the installation
          have hown := h.prints x hx howner (hsame ▸ hprint)
          obtain ⟨⟨p', _, _, hp', _, hd', _⟩, _⟩ := h.device _ hown x (Table.get_of_mem hx)
          cases hstands.1.symm.trans hp'
          exact hid hd'.symm
        simp only [Bool.and_eq_true, decide_eq_true_eq, Bool.not_eq_true']
        refine ⟨hid, ?_⟩
        simpa [RegisterDeviceInput.device, input, Install.input] using hother
      dsimp only
      rw [hchecks, hunique]
      exact ⟨_, rfl⟩
  rw [Server.register]
  cases hi : w.host.db.identities.get install.accountId with
  | some i =>
    have hgenuine := h.genuine i hi
    have hroot : i.rootPublicKey = (install.material state).rootPublicKey :=
      hcompatible state hstands.2 i hi
    have hfingerprint : i.rootFingerprint = (install.material state).rootFingerprint := by
      rw [hgenuine.digest, hroot, hformed.rootFingerprint]
    have hagrees : i.agrees input = true := by
      simp [agrees, input, Install.input, hroot, hfingerprint, hgenuine.version]
    dsimp only
    rw [if_pos hagrees]
    exact hrow false []
  | none =>
    have hchecks : (input.identity install.accountId w.host.now).checks = true := by
      simp [checks, RegisterDeviceInput.identity, input, Install.input,
        hformed.rootPublicKey, hdigest]
    rw [if_pos hchecks]
    exact hrow true _

theorem Server.Expired.register {s : Server} (h : s.Expired) (userId : Uuid)
    (input : RegisterDeviceInput) (hs : s.Settled) : (s.register userId input).2.Expired := by
  have hcase : RegisterCase s userId input (s.register userId input) := register_cases hs.owned
  generalize s.register userId input = out at hcase
  cases hcase <;> exact h

/-- What `ensureReady` does once there is a state. -/
def completeSetUp (profile : DeviceProfile) (state : σ) (m : RegistrationMaterial) :
    Act σ (DeviceProfile × σ) := do
  let registered ← ensureRegistered profile m
  if profile.registered = false ∧ registered.deviceStatus = .pendingApproval then
    pure (registered, state)
  else
    let approved ← ensureApproved registered
    ensurePublished approved state

theorem completeSetUp_finishes (hl : install.Lawful) (h : SetUp install w)
    (hcompatible : install.Compatible w) (hstands : Stands p state w.device)
    {m : RegistrationMaterial} (hm : install.MaterialOf m state) (hexpired : w.host.Expired) :
    install.Finishes (completeSetUp p state m) w := by
  rw [completeSetUp, ensureRegistered]
  split
  case isTrue hregistered =>
    have hbranch : ¬ (p.registered = false ∧ p.deviceStatus = .pendingApproval) := by
      rw [hregistered]
      exact fun hb => Bool.noConfusion hb.1
    simp only [pure_eq, done_bind]
    rw [if_neg hbranch]
    exact ensureApproved_finishes hl h hstands hregistered hexpired
  case isFalse hunregistered =>
    have hinput : install.input p.deviceId p.deviceLabel m
        = install.input p.deviceId p.deviceLabel (install.material state) := by
      rw [← show _ = _ from hm]
      rfl
    obtain ⟨d, hd⟩ := h.register_succeeds hl hcompatible hstands
    obtain ⟨hset, -, hrow⟩ := h.register hl hstands.1 hstands.2 rfl
    have hformed := hl.formed (h.state state hstands.2).2.1
    have hlabel := (h.profile p hstands.1).2
    have hadmits : install.Admits p.deviceLabel m := by
      have hdigest : (install.material state).rootFingerprint.length = 32 := by
        rw [hformed.rootFingerprint]
        exact hl.digest _
      have hstate : install.Admits p.deviceLabel (install.material state) :=
        { label := ⟨hlabel.present, hlabel.bytes⟩
          rootPublicKey := by rw [hformed.rootPublicKey]; decide
          rootFingerprint := by rw [hdigest]; decide
          credential := hformed.credential
          credentialFingerprint := by rw [hformed.credentialFingerprint]; decide
          approvalPublicKey := by rw [hformed.approvalPublicKey]; decide
          verifyingKey := hformed.verifyingKey
          version := fun t ht => (hl.version t ht).1 }
      rw [← show _ = _ from hm] at hstate
      exact ⟨hstate.label, hstate.rootPublicKey, hstate.rootFingerprint, hstate.credential,
        hstate.credentialFingerprint, hstate.approvalPublicKey, hstate.verifyingKey,
        hstate.version⟩
    have hrequest := registerMlsDevice_eq_ok.mpr ⟨hadmits,
      (rfl : install.input p.deviceId p.deviceLabel m = _)⟩
    have hserve : install.host w.host
        (.api (.registerDevice p.deviceId p.deviceLabel m)) (.ok d.status)
        (w.host.register install.accountId
          (install.input p.deviceId p.deviceLabel (install.material state))).2 := by
      refine Or.inl ⟨_, rfl, ?_, ?_⟩
      · rw [hrequest, Except.map, Server.handle, call_registerDevice, hinput, hd]
        rfl
      · rw [hrequest, Except.map, Server.handle, call_registerDevice, hinput]
    have hexpired' := hexpired.register (install.accountId)
      (install.input p.deviceId p.deviceLabel (install.material state)) h.settled
    rw [bind_assoc]
    refine finishes_remote hserve ?_
    rw [bind_assoc]
    refine finishes_store ?_
    rw [Bool.not_eq_true] at hunregistered
    simp only [pure_eq, done_bind]
    by_cases hp : d.status = .pendingApproval
    · rw [if_pos hp, if_pos ⟨hunregistered, rfl⟩]
      exact finishes_done _
    · rw [if_neg hp, if_neg (fun hb => by cases hb.2)]
      obtain ⟨x, hx, hactive⟩ := hrow d hd
      have hset' : SetUp install
          { device := { w.device with
              profile := some { p with registered := true, deviceStatus := .active } }
            host := (w.host.register install.accountId
              (install.input p.deviceId p.deviceLabel (install.material state))).2 } :=
        hset.sameDevice hstands.1 rfl rfl ⟨x, hx, fun _ => hactive hp⟩
      exact ensureApproved_finishes hl hset' ⟨rfl, hstands.2⟩ rfl hexpired'

theorem fetchRootPublicKey_finishes {f : Option Bytes → Act σ α}
    (h : install.Finishes
      (f ((w.host.db.identities.get install.accountId).map rootPublicKey)) w) :
    install.Finishes (fetchRootPublicKey install.accountId >>= f) w := by
  cases hi : w.host.db.identities.get install.accountId with
  | some i =>
    rw [hi] at h
    have hserve : install.host w.host (.api (.fetchRootIdentity install.accountId)) (.ok i.root)
        w.host := Or.inl ⟨rfl, by simp only [hi]⟩
    exact finishes_await ⟨w.host, hserve, rfl⟩ h
  | none =>
    rw [hi] at h
    have hserve : install.host w.host (.api (.fetchRootIdentity install.accountId))
        (.error (.api 404)) w.host := Or.inl ⟨rfl, by simp only [hi]⟩
    exact finishes_await ⟨w.host, hserve, rfl⟩ h

/-- **A run can succeed** where the state fits the account. -/
theorem ensureReady_finishes (hl : install.Lawful) (h : SetUp install w)
    (hcompatible : install.Compatible w) {deviceLabel : String} (hlabel : AcceptedLabel deviceLabel)
    (hexpired : w.host.Expired) :
    install.Finishes (ensureReady install.accountId deviceLabel) w := by
  show install.Finishes (ensureMaterial install.accountId deviceLabel >>= fun material =>
    completeSetUp material.1 material.2.1 material.2.2) w
  rw [ensureMaterial]
  simp only [bind_assoc]
  refine finishes_store (finishes_store ?_)
  simp only [DeviceStore.perform]
  cases hstate : w.device.state with
  | some state =>
    obtain ⟨hsome, hsound, -⟩ := h.state state hstate
    obtain ⟨profile, hprofile⟩ := Option.isSome_iff_exists.mp hsome
    obtain ⟨restored, hrestored⟩ := hl.restores hsound
    have hmaterial : restored.2 = install.material state := hl.publicMaterial hrestored
    have hrestore : install.host w.host (.core (.publicMaterial state)) (.ok restored) w.host :=
      ⟨hrestored, rfl⟩
    simp only [hprofile, bind_assoc]
    refine finishes_remote hrestore ?_
    refine completeSetUp_finishes hl h hcompatible ⟨hprofile, hstate⟩ ?_ hexpired
    show ({ restored.2 with keyPackage := [] } : RegistrationMaterial) = _
    rw [hmaterial, ← (hl.formed hsound).keyPackage]
  | none =>
    have hunregistered : ¬ (w.device.profile.any (·.registered) = true) := by
      intro hany
      obtain ⟨p, hp, hr⟩ := (Option.any_eq_true _ _).mp hany
      obtain ⟨x, hx, -⟩ := h.registered p hp hr
      rw [h.no_device hstate (h.profile p hp).1] at hx
      cases hx
    simp only [if_neg hunregistered, bind_assoc]
    refine fetchRootPublicKey_finishes ?_
    have hrest : ∀ profile : DeviceProfile, profile.deviceId ∈ install.ids →
        AcceptedLabel profile.deviceLabel → profile.registered = false →
        install.Finishes (store (.writeDeviceProfile profile) >>= fun _ =>
          core (.initializeWithRoot ⟨install.accountId, profile.deviceId⟩
            ((w.host.db.identities.get install.accountId).map rootPublicKey)) >>=
          fun made => store (.write made.1) >>= fun _ =>
          pure (profile, made.1, made.2) >>= fun material =>
            completeSetUp material.1 material.2.1 material.2.2) w := by
      intro profile hids hlabel hregistered
      have hlength : ∀ key, (w.host.db.identities.get install.accountId).map
          rootPublicKey = some key → key.length = 32 := by
        intro key hkey
        obtain ⟨i, hi, rfl⟩ := Option.map_eq_some_iff.mp hkey
        exact (h.genuine i hi).length
      obtain ⟨made, hmade⟩ := hl.initializes profile.deviceId _ hlength
      obtain ⟨hsound, hmaterial, hroot, hprint⟩ := hl.initialized hmade
      have hprint' : (install.material made.1).credentialFingerprint ∈ install.prints := by
        rw [← hmaterial]
        exact hprint hids
      have hset := (h.newProfile hstate hids hlabel hregistered).newState hstate rfl hsound hprint'
      have hfits : install.Compatible
          { w with device := { w.device with profile := some profile, state := some made.1 } } := by
        intro state hs i hi
        cases hs
        rw [← hmaterial]
        have hroot' : (w.host.db.identities.get install.accountId).map
            rootPublicKey = some i.rootPublicKey := Option.map_eq_some_iff.mpr
              ⟨i, hi, rfl⟩
        exact (hroot _ hroot').symm
      have hinitialize : install.host w.host
          (.core (.initializeWithRoot ⟨install.accountId, profile.deviceId⟩
            ((w.host.db.identities.get install.accountId).map rootPublicKey)))
          (.ok made) w.host := ⟨hmade, rfl⟩
      refine finishes_store (finishes_remote hinitialize (finishes_store ?_))
      exact completeSetUp_finishes hl hset hfits ⟨rfl, rfl⟩ hmaterial hexpired
    cases hprofile : w.device.profile with
    | some profile =>
      rw [hprofile, Option.any_some, Bool.not_eq_true] at hunregistered
      obtain ⟨hids, hlabel⟩ := h.profile profile hprofile
      exact hrest profile hids hlabel hunregistered
    | none =>
      obtain ⟨id, hid⟩ := hl.drawn
      have hdraw : install.host w.host .newId (.ok id) w.host := ⟨⟨id, hid, rfl⟩, rfl⟩
      exact finishes_await ⟨w.host, hdraw, rfl⟩ (hrest (newProfile deviceLabel id) hid hlabel rfl)

end

/-! ## Whether a set-up can be completed -/

/-- An installation that has stored nothing, and of whose devices the server knows none. -/
structure Install.Fresh (install : Install σ) (w : World σ Server) : Prop where
  settled : w.host.Settled
  genuine : ∀ i, w.host.db.identities.get install.accountId = some i →
    install.Genuine i.rootPublicKey i.rootFingerprint i.protocolVersion
  prints : install.OwnPrints w.host.db
  profile : w.device.profile = none
  state : w.device.state = none
  unknown : ∀ d ∈ install.ids, w.host.db.devices.get d = none

variable {w : World σ Server}

theorem Install.Fresh.setUp (h : install.Fresh w) : SetUp install w where
  settled := h.settled
  genuine := h.genuine
  prints := h.prints
  profile p hp := by
    rw [h.profile] at hp
    cases hp
  state state hs := by
    rw [h.state] at hs
    cases hs
  device d hd x hx := by
    rw [h.unknown d hd] at hx
    cases hx
  registered p hp := by
    rw [h.profile] at hp
    cases hp

theorem Install.Fresh.compatible (h : install.Fresh w) : install.Compatible w := by
  intro state hs
  rw [h.state] at hs
  cases hs

theorem acceptedLabel_client : AcceptedLabel "RedCode H5" :=
  ⟨by decide +kernel, by decide +kernel, by decide +kernel⟩

/-- **Exactly where the state does not fit the account**, no later run succeeds. -/
theorem doomed_iff (hl : install.Lawful) (h : SetUp install w) :
    install.Doomed w ↔ ¬ install.Compatible w := by
  constructor
  · intro hdoomed hcompatible
    obtain ⟨n, hexpired⟩ := exists_expired w.host
    have hset : SetUp install { w with host := w.host.tick n } :=
      h.of_leftAlone (h.settled.tick n) (leftAlone_of_eq rfl rfl)
    obtain ⟨events, a, w', hrun⟩ :=
      ensureReady_finishes hl hset hcompatible acceptedLabel_client hexpired
    obtain ⟨err, herr⟩ := hdoomed _ _ events (.done a) w' (.meanwhile .nil (.tick n))
      ⟨_, acceptedLabel_client, rfl⟩ hrun
    cases herr
  · intro hnot
    obtain ⟨p, state, i, hstuck⟩ := stuck_of_not_compatible h hnot
    exact hstuck.doomed hl

/-- What is registered is what is stored, and stays. -/
theorem SetUp.identity_kept (hl : install.Lawful) {w' : World σ Server} (h : SetUp install w)
    (hw : install.History w w') {d : Uuid} (hd : d ∈ install.ids) {x : Device}
    (hx : w.host.db.devices.get d = some x) :
    ∃ p state p' state', Stands p state w.device ∧ Stands p' state' w'.device ∧
      p.deviceId = d ∧ p'.deviceId = d ∧ install.material state' = install.material state := by
  have hkept := kept_of_history hl hw h
  have h' := setUp_of_history hl hw h
  obtain ⟨⟨p, state, i, hp, hs, hid, hi, -, hagrees, hroot⟩, -⟩ := h.device d hd x hx
  obtain ⟨x', hx', hsame⟩ := hkept.device d hd x hx
  obtain ⟨⟨p', state', i', hp', hs', hid', hi', -, hagrees', hroot'⟩, -⟩ := h'.device d hd x' hx'
  refine ⟨p, state, p', state', ⟨hp, hs⟩, ⟨hp', hs'⟩, hid, hid', ?_⟩
  cases (hkept.identity i hi).symm.trans hi'
  rw [hsame.agrees] at hagrees'
  have hpackage := (hl.formed (h.state state hs).2.1).keyPackage
  have hpackage' := (hl.formed (h'.state state' hs').2.1).keyPackage
  obtain ⟨-, hcredential, hprint, happroval, -⟩ := device_agrees_iff.mp hagrees
  obtain ⟨-, hcredential', hprint', happroval', -⟩ := device_agrees_iff.mp hagrees'
  obtain ⟨hkey, hfingerprint, -⟩ := identity_agrees_iff.mp hroot
  obtain ⟨hkey', hfingerprint', -⟩ := identity_agrees_iff.mp hroot'
  have hsame' : ∀ m m' : RegistrationMaterial, m.keyPackage = m'.keyPackage →
      m.rootPublicKey = m'.rootPublicKey → m.rootFingerprint = m'.rootFingerprint →
      m.credential = m'.credential → m.credentialFingerprint = m'.credentialFingerprint →
      m.approvalPublicKey = m'.approvalPublicKey → m = m' := by
    rintro ⟨⟩ ⟨⟩ rfl rfl rfl rfl rfl rfl
    rfl
  exact hsame' _ _ (hpackage'.trans hpackage.symm) (hkey'.symm.trans hkey)
    (hfingerprint'.symm.trans hfingerprint) (hcredential'.symm.trans hcredential)
    (hprint'.symm.trans hprint) (Option.some.inj (happroval'.symm.trans happroval))

/-- **The set-up of a device.**  However often `ensureReady` is cut short, and whatever the other
devices of the account do meanwhile, an installation registers at most one device, with the
material of the state it has stored, and keeps to that identity.  No later run can succeed just
where the stored state has another root key than the account, which a careful history never
leads to. -/
theorem device_setup (hl : install.Lawful) {w₀ w : World σ Server} (hfresh : install.Fresh w₀)
    (h : install.History w₀ w) :
    (∀ d ∈ install.ids, ∀ d' ∈ install.ids, (w.host.db.devices.get d).isSome = true →
      (w.host.db.devices.get d').isSome = true → d = d') ∧
    (∀ d ∈ install.ids, ∀ x, w.host.db.devices.get d = some x → install.Described w d x) ∧
    (∀ d ∈ install.ids, ∀ x, w.host.db.devices.get d = some x → ∀ w', install.History w w' →
      ∃ p state p' state', Stands p state w.device ∧ Stands p' state' w'.device ∧
        p.deviceId = d ∧ p'.deviceId = d ∧ install.material state' = install.material state) ∧
    (install.Doomed w ↔ ¬ install.Compatible w) ∧
    (install.CarefulHistory w₀ w → ¬ install.Doomed w) := by
  have hset := setUp_of_history hl h hfresh.setUp
  refine ⟨fun d hd d' hd' hx hx' => ?_, fun d hd x hx => (hset.device d hd x hx).1,
    fun d hd x hx w' hw => hset.identity_kept hl hw hd hx, doomed_iff hl hset, fun hcareful => ?_⟩
  · obtain ⟨x, hx⟩ := Option.isSome_iff_exists.mp hx
    obtain ⟨x', hx'⟩ := Option.isSome_iff_exists.mp hx'
    obtain ⟨⟨p, _, _, hp, _, hid, _⟩, _⟩ := hset.device d hd x hx
    obtain ⟨⟨p', _, _, hp', _, hid', _⟩, _⟩ := hset.device d' hd' x' hx'
    cases hp.symm.trans hp'
    exact hid.symm.trans hid'
  · have hcompatible := compatible_of_history hl hcareful hfresh.setUp hfresh.compatible
    exact fun hdoomed => (doomed_iff hl hset).mp hdoomed hcompatible

/-! ## Two devices at once

Account `1` has the devices `11` and `12`, which are set up at the same time. -/

namespace Sample

/-- The account state of a device: its id, and the root key. -/
abbrev SetupState : Type := Uuid × Bytes

/-- A digest of the right length. -/
def padded (bytes : Bytes) : Bytes := (bytes ++ List.replicate 32 0).take 32

/-- The key of a device. -/
def deviceKey (deviceId : Uuid) : Bytes := List.replicate 32 (UInt8.ofNat deviceId)

def setupMaterial (state : SetupState) : RegistrationMaterial where
  keyPackage := []
  rootPublicKey := state.2
  rootFingerprint := padded state.2
  credential := deviceKey state.1
  credentialFingerprint := deviceKey state.1
  approvalPublicKey := deviceKey state.1

def setupCore : (e : CoreCommand SetupState) → Except ClientError e.Reply
  | .initializeWithRoot identity root =>
    let key := root.getD (deviceKey identity.deviceId)
    if key.length = 32 then
      .ok ((identity.deviceId, key),
        { setupMaterial (identity.deviceId, key) with keyPackage := [7] })
    else .error (.core "InvalidRootPublicKey")
  | .publicMaterial state => .ok (state, setupMaterial state)
  | .generateKeyPackage state => .ok (state, [7])
  | _ => .error (.core "not used")

/-- The installation on the device `11`. -/
def phoneInstall : Install SetupState where
  accountId := 1
  clientVersion := "1.0.0"
  core := fun e r => setupCore e = r
  sound := fun state => state.2.length = 32
  material := setupMaterial
  digest := padded
  verifyingKey := fun _ => true
  ids := fun id => id = 11
  prints := fun print => print = deviceKey 11

theorem length_padded (bytes : Bytes) : (padded bytes).length = 32 := by
  rw [padded, List.length_take, List.length_append, List.length_replicate]
  omega

theorem length_deviceKey (deviceId : Uuid) : (deviceKey deviceId).length = 32 :=
  List.length_replicate

theorem lawful : phoneInstall.Lawful where
  initialized := by
    rintro deviceId root made (h : setupCore _ = _)
    rw [setupCore] at h
    split at h
    case isFalse => cases h
    case isTrue hlength =>
      cases h
      refine ⟨hlength, rfl, ?_, ?_⟩
      · rintro key rfl
        rfl
      · rintro (rfl : deviceId = 11)
        rfl
  publicMaterial := by
    rintro state restored (h : setupCore _ = _)
    cases h
    rfl
  generateKeyPackage := by
    rintro state generated hsound (h : setupCore _ = _)
    cases h
    exact ⟨hsound, rfl⟩
  formed := fun {state} hsound =>
    { keyPackage := rfl
      rootPublicKey := hsound
      rootFingerprint := rfl
      credential := by
        have hlength : (phoneInstall.material state).credential.length = 32 :=
          length_deviceKey state.1
        rw [hlength]
        decide
      credentialFingerprint := length_deviceKey _
      approvalPublicKey := length_deviceKey _
      verifyingKey := rfl }
  digest := length_padded
  initializes deviceId root hroot := by
    have hlength : (root.getD (deviceKey deviceId)).length = 32 := by
      cases root with
      | none => exact length_deviceKey deviceId
      | some key => exact hroot key rfl
    exact ⟨_, if_pos hlength⟩
  restores _ := ⟨_, rfl⟩
  generates _ := ⟨_, rfl, Nat.le_refl 1, show 1 ≤ 1048576 by decide⟩
  drawn := ⟨11, rfl⟩
  version t ht := by
    cases ht
    exact ⟨by decide +kernel, by decide +kernel, by decide +kernel⟩

/-- Nothing is stored, and no device is registered. -/
def beforeSetup : World SetupState Server where
  device := { state := none, profile := none, pending := none, records := fun _ => none
              metadata := none }
  host := { db := Db.withRooms [], seq := 1, now := 0 }

theorem settled_beforeSetup : beforeSetup.host.Settled :=
  ⟨.init (Db.withRooms []), ⟨_, Db.initial_withRooms [], .refl⟩, fun _ => rfl, rfl, rfl, rfl⟩

theorem fresh_beforeSetup : phoneInstall.Fresh beforeSetup where
  settled := settled_beforeSetup
  genuine i hi := by cases hi
  prints x hx := by cases hx
  profile := rfl
  state := rfl
  unknown d _ := rfl

/-- The device `11` has stored a state with a root key of its own. -/
def afterStore : World SetupState Server :=
  { beforeSetup with device :=
    { beforeSetup.device with
      profile := some (newProfile "RedCode H5" 11), state := some (11, deviceKey 11) } }

/-- A run of `p` can be cut short in `w'`. -/
def Reaches {α : Type} (p : Act SetupState α) (w w' : World SetupState Server) : Prop :=
  ∃ events p', Action.Run (phoneInstall.surroundings (fun _ _ => True) fun _ _ => True)
    p w events p' w'

theorem reaches_await {α : Type} {e : Effect SetupState}
    {k : (clientEffects SetupState).Answer e → Act SetupState α}
    {w w₁ w₂ : World SetupState Server} (r : (clientEffects SetupState).Answer e)
    (hr : phoneInstall.host.env w e r w₁)
    (h : Reaches (k r) w₁ w₂) : Reaches (.await e k) w w₂ := by
  obtain ⟨events, p', hrun⟩ := h
  exact ⟨_, p', .step (among_self ⟨trivial, hr⟩) hrun⟩

/-- The run of the device `11` is cut short there. -/
theorem history_afterStore : phoneInstall.History beforeSetup afterStore := by
  have hrun : Reaches (ensureReady phoneInstall.accountId "RedCode H5") beforeSetup afterStore := by
    refine reaches_await _ ⟨rfl, rfl⟩ (reaches_await _ ⟨rfl, rfl⟩ ?_)
    refine reaches_await (.error (.api 404)) ⟨_, Or.inl ⟨rfl, rfl⟩, rfl⟩ ?_
    refine reaches_await (.ok 11) ⟨_, ⟨⟨11, rfl, rfl⟩, rfl⟩, rfl⟩ ?_
    refine reaches_await _ ⟨rfl, rfl⟩ ?_
    refine reaches_await _ ⟨_, ⟨rfl, rfl⟩, rfl⟩ ?_
    exact reaches_await _ ⟨rfl, rfl⟩ ⟨[], _, .refl _ _⟩
  obtain ⟨events, p', hrun⟩ := hrun
  exact .attempt .nil ⟨_, acceptedLabel_client, rfl⟩ hrun

/-- The registration of the device `12`. -/
def otherRegistration : RegisterDeviceInput :=
  phoneInstall.input 12 "RedCode H5" (setupMaterial (12, deviceKey 12))

/-- The device `12` has registered as the first of the account. -/
def afterOther : World SetupState Server :=
  { afterStore with host := (afterStore.host.call (.registerDevice 1 otherRegistration)).2 }

theorem foreign_other : phoneInstall.Foreign (.registerDevice 1 otherRegistration) := by
  refine ⟨?_, fun _ => ⟨?_, ?_⟩⟩
  · show ¬ (12 : ℕ) = 11
    decide
  · show ¬ deviceKey 12 = deviceKey 11
    decide
  · exact ⟨length_deviceKey 12, rfl, rfl⟩

theorem history_afterOther : phoneInstall.History beforeSetup afterOther :=
  .meanwhile history_afterStore (.call _ foreign_other trivial)

end Sample

/-- The device `11` is told that the account has no root identity and stores one of its own; then
the device `12` registers first.  It is active, and could approve the other; but no later run of
that one succeeds. -/
theorem setup_orphaned : ∃ w, phoneInstall.History beforeSetup w ∧
    (∃ d ∈ w.host.db.devices.rows, d.userId = 1 ∧ d.id ≠ 11 ∧ d.status = .active) ∧
    phoneInstall.Doomed w := by
  have hserver : afterOther.host
      = (afterStore.host.register 1 otherRegistration).2 := by
    rfl
  have hidentity : (afterOther.host.db.identities.get 1).map rootPublicKey
      = some (deviceKey 12) := by
    decide +kernel
  have hdevice : (afterOther.host.db.devices.rows.any fun d =>
      decide (d.userId = 1 ∧ d.id ≠ 11 ∧ d.status = .active)) = true := by
    rw [hserver]
    decide +kernel
  refine ⟨afterOther, history_afterOther, ?_, ?_⟩
  · obtain ⟨d, hd, hrest⟩ := List.any_eq_true.mp hdevice
    exact ⟨d, hd, of_decide_eq_true hrest⟩
  · have hset := setUp_of_history lawful history_afterOther
      fresh_beforeSetup.setUp
    refine (doomed_iff lawful hset).mpr fun hcompatible => ?_
    obtain ⟨i, hi, hkey⟩ := Option.map_eq_some_iff.mp hidentity
    have hsame := hcompatible (11, deviceKey 11) rfl i hi
    rw [hkey] at hsame
    exact absurd hsame (by decide)

/-- Without another device, the one that is cut short there can go on. -/
theorem device_setup_cut : ¬ phoneInstall.Doomed afterStore ∧
    ¬ phoneInstall.Doomed beforeSetup := by
  have hstart := device_setup lawful fresh_beforeSetup .nil
  have hcut := device_setup lawful fresh_beforeSetup history_afterStore
  refine ⟨fun hdoomed => hcut.2.2.2.1.mp hdoomed fun state _ i hi => ?_, hstart.2.2.2.2 .nil⟩
  cases hi

end RedcodeIm
