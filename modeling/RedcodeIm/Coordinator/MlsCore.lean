import RedcodeIm.Coordinator.Guarantee

/-!
# The epochs of the core

The MLS core is opaque to the clients: what is relied on here is how its commands move the
epochs of the groups of an account state.

* `MlsEpochs` — what is relied on.
* `countingCore` — the least core that does so: it keeps count of the epochs, the leaves of the
  groups, the private parts of the key packages and the messages it has seen.
-/

namespace RedcodeIm

open Awaiting

variable {σ ρ : Type}

/-! ## Epochs -/

/-- The epochs of the groups of an account state, and how the commands of the core move them:
a Commit opens the next epoch of its own group, a Welcome enters its group at the epoch it
carries, nothing else touches a group's epoch.  A group that is not there counts as one at epoch
zero; one that is there is not created again. -/
structure MlsEpochs (host : Host σ ρ) (epochOf : σ → Uuid → ℕ) (groupOf : Bytes → Uuid) :
    Prop where
  generateKeyPackage : ∀ {state generated}, host.Gives (.core (.generateKeyPackage state))
    (.ok generated) → ∀ room, epochOf generated.1 room = epochOf state room
  createGroup : ∀ {state room created}, host.Gives (.core (.createGroup state room))
    (.ok created) → epochOf state room = 0 ∧ epochOf created room = 0 ∧
      ∀ other, other ≠ room → epochOf created other = epochOf state other
  addMember : ∀ {state room keyPackage added}, host.Gives
    (.core (.addMember state room keyPackage)) (.ok added) →
      added.epoch = epochOf state room + 1 ∧ epochOf added.state room = added.epoch ∧
      ∀ other, other ≠ room → epochOf added.state other = epochOf state other
  removeMember : ∀ {state room identity removed}, host.Gives
    (.core (.removeMember state room identity)) (.ok removed) →
      removed.epoch = epochOf state room + 1 ∧ epochOf removed.state room = removed.epoch ∧
      ∀ other, other ≠ room → epochOf removed.state other = epochOf state other
  encrypt : ∀ {state room payload encrypted}, host.Gives (.core (.encrypt state room payload))
    (.ok encrypted) → ∀ other, epochOf encrypted.state other = epochOf state other
  decrypt : ∀ {state room ciphertext decrypted}, host.Gives
    (.core (.decrypt state room ciphertext)) (.ok decrypted) →
      ∀ other, epochOf decrypted.state other = epochOf state other
  processCommit : ∀ {state room commit processed}, host.Gives
    (.core (.processCommit state room commit)) (.ok processed) →
      processed.2 = epochOf state room + 1 ∧ epochOf processed.1 room = processed.2 ∧
      ∀ other, other ≠ room → epochOf processed.1 other = epochOf state other
  joinGroup : ∀ {state welcome entered}, host.Gives (.core (.joinGroup state welcome))
    (.ok entered) → epochOf entered.1 (groupOf welcome) = entered.2 ∧
      ∀ other, other ≠ groupOf welcome → epochOf entered.1 other = epochOf state other

/-- What can be answered less often does not have to be relied on. -/
theorem MlsEpochs.mono {host host' : Host σ ρ} {epochOf : σ → Uuid → ℕ} {groupOf : Bytes → Uuid}
    (hmls : MlsEpochs host epochOf groupOf)
    (hsub : ∀ {e : RemoteEffect σ} {r : Answer e}, host'.Gives e r → host.Gives e r) :
    MlsEpochs host' epochOf groupOf where
  generateKeyPackage h := hmls.generateKeyPackage (hsub h)
  createGroup h := hmls.createGroup (hsub h)
  addMember h := hmls.addMember (hsub h)
  removeMember h := hmls.removeMember (hsub h)
  encrypt h := hmls.encrypt (hsub h)
  decrypt h := hmls.decrypt (hsub h)
  processCommit h := hmls.processCommit (hsub h)
  joinGroup h := hmls.joinGroup (hsub h)

/-! ## A core that counts -/

/-- The account state of the counting core. -/
structure CountingState where
  epochs : Uuid → ℕ
  leaves : Uuid → List Leaf
  keyPackages : List Bytes
  messages : List Bytes

open CountingState

namespace CountingState

/-- A device that has just been set up. -/
def initial : CountingState where
  epochs := fun _ => 0
  leaves := fun _ => []
  keyPackages := []
  messages := []

/-- The group of a room at another epoch, with other leaves. -/
def enter (s : CountingState) (room epoch : ℕ) (leaves : List Leaf) : CountingState :=
  { s with
    epochs := Function.update s.epochs room epoch
    leaves := Function.update s.leaves room leaves }

theorem epochs_enter_self (s : CountingState) (room epoch : ℕ) (leaves : List Leaf) :
    (s.enter room epoch leaves).epochs room = epoch := Function.update_self ..

theorem epochs_enter_of_ne (s : CountingState) {room other : ℕ} (epoch : ℕ) (leaves : List Leaf)
    (h : other ≠ room) : (s.enter room epoch leaves).epochs other = s.epochs other :=
  Function.update_of_ne h ..

end CountingState

/-- The group a Commit or a Welcome is for, and the epoch it opens. -/
def countingEnvelope (room epoch : ℕ) : Bytes := List.replicate room 1 ++ List.replicate epoch 0

/-- The room of an envelope. -/
def countingRoom (envelope : Bytes) : Uuid := envelope.count 1

/-- The epoch of an envelope. -/
def countingEpoch (envelope : Bytes) : ℕ := envelope.count 0

/-- The key package of a leaf. -/
def countingKeyPackage (leaf : Leaf) : Bytes :=
  List.replicate leaf.userId 1 ++ List.replicate leaf.deviceId 0

/-- The leaf of a key package. -/
def countingLeaf (keyPackage : Bytes) : Leaf := ⟨keyPackage.count 1, keyPackage.count 0⟩

/-- What a device registers with. -/
def countingMaterial : RegistrationMaterial where
  keyPackage := []
  rootPublicKey := [1]
  rootFingerprint := List.replicate 16 1
  credential := [1]
  credentialFingerprint := [1]
  approvalPublicKey := [1]

/-- The commands of the counting core. -/
def countingCore : (e : CoreCommand CountingState) → Except ClientError e.Reply
  | .initializeWithRoot _ _ => .ok (.initial, countingMaterial)
  | .publicMaterial state => .ok (state, countingMaterial)
  | .generateKeyPackage state =>
    let keyPackage := List.replicate (state.keyPackages.length + 1) 7
    .ok ({ state with keyPackages := state.keyPackages ++ [keyPackage] }, keyPackage)
  | .createGroup state room =>
    if state.epochs room = 0 then .ok state else .error (.core "group already exists")
  | .addMember state room keyPackage =>
    let epoch := state.epochs room + 1
    .ok { state := state.enter room epoch (state.leaves room ++ [countingLeaf keyPackage])
          commit := countingEnvelope room epoch
          welcome := countingEnvelope room epoch
          epoch := epoch }
  | .encrypt state room _ =>
    let ciphertext := List.replicate (state.messages.length + 1) 8
    .ok { state := { state with messages := state.messages ++ [ciphertext] }
          ciphertext := ciphertext
          epoch := state.epochs room }
  | .decrypt state room ciphertext =>
    .ok { state := { state with messages := state.messages ++ [ciphertext] }
          payload := some (.text "x")
          epoch := state.epochs room }
  | .joinGroup state welcome =>
    .ok (state.enter (countingRoom welcome) (countingEpoch welcome) [], countingEpoch welcome)
  | .processCommit state room commit =>
    let epoch := state.epochs room + 1
    if countingEpoch commit = epoch then .ok (state.enter room epoch (state.leaves room), epoch)
    else .error (.core "wrong epoch")
  | .removeMember state room identity =>
    let epoch := state.epochs room + 1
    if identity ∈ state.leaves room then
      .ok { state := state.enter room epoch ((state.leaves room).filter (· ≠ identity))
            commit := countingEnvelope room epoch
            epoch := epoch }
    else .error .memberNotFound
  | .listMembers state room => .ok (state.leaves room)

/-- A host with the counting core, and a counter for fresh identifiers. -/
def countingHost (api : ρ → (e : ApiRequest) → Except ClientError e.Reply × ρ) :
    ρ × Uuid → (e : RemoteEffect CountingState) → Answer e × (ρ × Uuid)
  | h, .core e => (countingCore e, h)
  | h, .api e => ((api h.1 e).1, (api h.1 e).2, h.2)
  | h, .newId => (.ok h.2, h.1, h.2 + 1)
  | h, .now => (.ok 0, h)

theorem countingCore_of_gives {api : ρ → (e : ApiRequest) → Except ClientError e.Reply × ρ}
    {e : CoreCommand CountingState} {a : e.Reply}
    (h : (Host.of (countingHost api)).Gives (.core e) (.ok a)) : countingCore e = .ok a := by
  obtain ⟨h, h', hgives⟩ := h
  exact congrArg Prod.fst hgives

theorem api_of_gives {api : ρ → (e : ApiRequest) → Except ClientError e.Reply × ρ}
    {e : ApiRequest} {a : e.Reply}
    (h : (Host.of (countingHost api)).Gives (.api e) (.ok a)) : ∃ s, (api s e).1 = .ok a := by
  obtain ⟨h, h', hgives⟩ := h
  exact ⟨h.1, congrArg Prod.fst hgives⟩

/-- **The counting core** moves the epochs as it should. -/
theorem mlsEpochs_counting (api : ρ → (e : ApiRequest) → Except ClientError e.Reply × ρ) :
    MlsEpochs (Host.of (countingHost api)) epochs countingRoom where
  generateKeyPackage h room := by
    cases countingCore_of_gives h
    rfl
  createGroup h := by
    have hcore := countingCore_of_gives h
    simp only [countingCore] at hcore
    split at hcore
    case isFalse => cases hcore
    case isTrue hzero =>
      cases hcore
      exact ⟨hzero, hzero, fun _ _ => rfl⟩
  addMember h := by
    cases countingCore_of_gives h
    exact ⟨rfl, epochs_enter_self .., fun _ h =>
      epochs_enter_of_ne _ _ _ h⟩
  removeMember h := by
    have hcore := countingCore_of_gives h
    simp only [countingCore] at hcore
    split at hcore
    case isFalse => cases hcore
    case isTrue =>
      cases hcore
      exact ⟨rfl, epochs_enter_self .., fun _ h =>
        epochs_enter_of_ne _ _ _ h⟩
  encrypt h other := by
    cases countingCore_of_gives h
    rfl
  decrypt h other := by
    cases countingCore_of_gives h
    rfl
  processCommit h := by
    have hcore := countingCore_of_gives h
    simp only [countingCore] at hcore
    split at hcore
    case isFalse => cases hcore
    case isTrue =>
      cases hcore
      exact ⟨rfl, epochs_enter_self .., fun _ h =>
        epochs_enter_of_ne _ _ _ h⟩
  joinGroup h := by
    cases countingCore_of_gives h
    exact ⟨epochs_enter_self .., fun _ h => epochs_enter_of_ne _ _ _ h⟩

end RedcodeIm
