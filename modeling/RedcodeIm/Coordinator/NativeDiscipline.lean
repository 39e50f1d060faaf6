import RedcodeIm.Coordinator.Discipline
import RedcodeIm.Coordinator.Native

/-!
# What the native coordinators do to the device

Every write of a native coordinator to the local storage, with what it knows when it writes.
A call goes on with a profile it has read at its beginning, so what holds of the profiles and
the states that are stored is carried along as an invariant of the device.

* `Native.Changed` — how a change of a group gets from one state to another.
* `NativeWrite` — the writes.
* `Native.Upholds` — an invariant that the writes keep.
* `NativeCall.upheld`, `NativeVisits.holds` — every call keeps it, in every run.
-/

namespace RedcodeIm

open Awaiting

variable {σ ρ : Type}

/-- The message that is kept to be sent. -/
def DeviceStore.pendingApplication (s : DeviceStore σ) : Option (PendingApplication σ) :=
  s.metadata.bind (·.pendingApplication)

open DeviceStore

namespace Native

/-- One leaf removed from a group, or added to it, with a Commit that the server has accepted. -/
inductive ChangeStep (host : Host σ ρ) (roomId : Uuid) : Change σ → Change σ → Prop where
  | removal {change : Change σ} {identity : Leaf} {removed : RemovedMember σ}
      {input : SubmitControlMessageInput}
      (hgives : host.Gives (.core (.removeMember change.1 roomId identity)) (.ok removed))
      (hcommit : input.contentType = .commit) (hepoch : input.epoch = removed.epoch)
      (haccepted : host.Gives (.api (.submitControlMessage roomId input)) (.ok ())) :
      ChangeStep host roomId change (removed.state, some input.id)
  | addition {change : Change σ} {keyPackage : Bytes} {added : AddedMember σ}
      {input : SubmitControlMessageInput}
      (hgives : host.Gives (.core (.addMember change.1 roomId keyPackage)) (.ok added))
      (hcommit : input.contentType = .commit) (hepoch : input.epoch = added.epoch)
      (haccepted : host.Gives (.api (.submitControlMessage roomId input)) (.ok ())) :
      ChangeStep host roomId change (added.state, some input.id)

/-- A change goes on from another. -/
abbrev Changed (host : Host σ ρ) (roomId : Uuid) : Change σ → Change σ → Prop :=
  Relation.ReflTransGen (ChangeStep host roomId)

end Native

/-- What a native coordinator may do to a device, where `seen` holds of the states and `known`
of the profiles it has come across. -/
inductive NativeWrite (host : Host σ ρ) (seen : σ → Prop) (known : DeviceProfile → Prop)
    (s : DeviceStore σ) : StorageEffect σ → Prop where
  | inert {e : StorageEffect σ} (h : e.Inert) : NativeWrite host seen known s e
  | lifecycle {e : StorageEffect σ} (h : LifecycleWrite host s e) : NativeWrite host seen known s e
  /-- A change of a group has been submitted. -/
  | group {start : σ} {change : Native.Change σ} {roomId : Uuid} (hstart : s.state = some start)
      (hchanged : Native.Changed host roomId (start, none) change) (hsome : change.2 ≠ none) :
      NativeWrite host seen known s (.write change.1)
  | created {start created : σ} {change : Native.Change σ} {roomId : Uuid}
      (hstart : s.state = some start)
      (hcreated : host.Gives (.core (.createGroup start roomId)) (.ok created))
      (hchanged : Native.Changed host roomId (created, none) change) (hsome : change.2 ≠ none) :
      NativeWrite host seen known s (.write change.1)
  | commit {p : DeviceProfile} {roomId last : Uuid} (hp : known p) :
      NativeWrite host seen known s (.writeDeviceProfile (p.withCommit roomId last))
  /-- A page of controls has been processed. -/
  | controls {p : DeviceProfile} {state state' : σ} {roomId : Uuid}
      {messages : List ControlMessage} {last : ControlMessage} (hstate : s.state = some state)
      (hp : known p)
      (hlist : host.Gives (.api (.listControlMessages roomId p.deviceId (p.cursor roomId)
        controlPageLimit)) (.ok messages))
      (hlast : messages.getLast? = some last)
      (hbatch : Batched host roomId messages state state' (p.joined roomId)) :
      NativeWrite host seen known s (.write state')
  | cursor {p : DeviceProfile} {state state' : σ} {roomId commitId : Uuid}
      {messages : List ControlMessage} {last : ControlMessage} (hseen : seen state)
      (hp : known p)
      (hlist : host.Gives (.api (.listControlMessages roomId p.deviceId (p.cursor roomId)
        controlPageLimit)) (.ok messages))
      (hlast : messages.getLast? = some last)
      (hbatch : Batched host roomId messages state state' (p.joined roomId)) :
      NativeWrite host seen known s
        (.writeDeviceProfile (Native.syncedProfile p roomId last.sequenceNo (some commitId)))
  /-- A message has been sent, -/
  | sent {pending : PendingApplication σ} (h : s.pendingApplication = some pending) :
      NativeWrite host seen known s (.write pending.nextState)
  | cleared {metadata : DirectMessageMetadata σ} {pending : PendingApplication σ}
      (h : s.pendingApplication = some pending) (hstate : s.state = some pending.nextState)
      (hm : metadata.pendingApplication = none) :
      NativeWrite host seen known s (.writeMetadata metadata)
  /-- or is to be sent, -/
  | kept {metadata : DirectMessageMetadata σ} {pending : PendingApplication σ} {state : σ}
      {payload : ApplicationPayload} {encrypted : Encrypted σ} (h : s.pendingApplication = none)
      (hstate : s.state = some state)
      (hgives : host.Gives (.core (.encrypt state pending.roomId payload)) (.ok encrypted))
      (hnext : pending.nextState = encrypted.state)
      (hm : metadata.pendingApplication = some pending) :
      NativeWrite host seen known s (.writeMetadata metadata)
  /-- or has been read. -/
  | decrypted {state : σ} {roomId : Uuid} {ciphertext : Bytes} {decrypted : Decrypted σ}
      (hstate : s.state = some state)
      (hgives : host.Gives (.core (.decrypt state roomId ciphertext)) (.ok decrypted)) :
      NativeWrite host seen known s (.write decrypted.state)
  | metadata {metadata : DirectMessageMetadata σ}
      (hm : metadata.pendingApplication = s.pendingApplication) :
      NativeWrite host seen known s (.writeMetadata metadata)

/-- The storage is used as permitted, everything else freely. -/
def nativePermits (host : Host σ ρ) (seen : σ → Prop) (known : DeviceProfile → Prop)
    (w : World σ ρ) : Effect σ → Prop
  | .storage e => NativeWrite host seen known w.device e
  | .remote _ => True

instance (host : Host σ ρ) (seen : σ → Prop) (known : DeviceProfile → Prop) :
    Setup host (nativePermits host seen known) where
  inert h := .inert h
  remote := trivial
  lifecycle h := .lifecycle h

namespace Native

/-- An invariant of the device that the writes keep, and what it says of the states and the
profiles that are stored. -/
structure Upholds (host : Host σ ρ) (seen : σ → Prop) (known : DeviceProfile → Prop)
    (J : DeviceStore σ → Prop) : Prop where
  states : ∀ {s state}, J s → s.state = some state → seen state
  profiles : ∀ {s p}, J s → s.profile = some p → known p
  keeps : ∀ {s e}, J s → NativeWrite host seen known s e → J (s.perform e).2

section

variable {host : Host σ ρ} {seen : σ → Prop} {known : DeviceProfile → Prop}
  {J : DeviceStore σ → Prop} {α : Type} {Q : Outcome (clientEffects σ) α → World σ ρ → Prop}
  {w : World σ ρ}

/-- A program of a native coordinator, run from a world, writes as permitted and ends in
`Q`. -/
abbrev Does {α : Type} (host : Host σ ρ) (seen : σ → Prop) (known : DeviceProfile → Prop)
    (Q : Outcome (clientEffects σ) α → World σ ρ → Prop) (p : Act σ α) (w : World σ ρ) : Prop :=
  Action.Always host.env (nativePermits host seen known) Q p w

/-- The invariant holds, and the metadata are as on the device `s`. -/
def Quiet (J : DeviceStore σ → Prop) (s : DeviceStore σ) (w' : World σ ρ) : Prop :=
  J w'.device ∧ w'.device.metadata = s.metadata

theorem does_readState_bind {f : σ → Act σ α} (hfail : ∀ err, Q (.fail err) w)
    (h : ∀ state, w.device.state = some state → Does host seen known Q (f state) w) :
    Does host seen known Q (readState >>= f) w := by
  rw [readState, Action.bind_assoc]
  refine keeps_inert_bind trivial rfl ?_
  cases hstate : w.device.state with
  | none =>
    simp only [perform, hstate]
    exact hfail _
  | some state =>
    simp only [perform, hstate]
    exact h state hstate

theorem does_readProfile_bind {f : DeviceProfile → Act σ α} (hfail : ∀ err, Q (.fail err) w)
    (h : ∀ p, w.device.profile = some p → Does host seen known Q (f p) w) :
    Does host seen known Q (readProfile >>= f) w := by
  rw [readProfile, Action.bind_assoc]
  refine keeps_inert_bind trivial rfl ?_
  cases hp : w.device.profile with
  | none =>
    simp only [perform, hp]
    exact hfail _
  | some p =>
    simp only [perform, hp]
    exact h p hp

theorem does_readMetadata_bind {f : DirectMessageMetadata σ → Act σ α}
    (h : ∀ metadata, metadata.pendingApplication = w.device.pendingApplication →
      Does host seen known Q (f metadata) w) :
    Does host seen known Q (readMetadata >>= f) w := by
  rw [readMetadata, Action.bind_assoc]
  refine keeps_inert_bind trivial rfl ?_
  cases hm : w.device.metadata with
  | none =>
    simp only [perform, hm]
    exact h _ (by simp [pendingApplication, hm, DirectMessageMetadata.empty])
  | some metadata =>
    simp only [perform, hm]
    exact h _ (by simp [pendingApplication, hm])

/-! ## Changes of a group -/

variable {p : DeviceProfile} {membershipRevision : ℕ}

variable {roomId : ℕ}

theorem submit_spec {id epoch : ℕ} {contentType : ControlContentType} {envelope : Bytes}
    {recipientDeviceId : Option Uuid} :
    Does host seen known (fun o w' => Same w w' ∧ (o = .done () → ∃ input,
      (input.contentType = contentType ∧ input.epoch = epoch ∧ input.id = id) ∧
      host.Gives (.api (.submitControlMessage roomId input)) (.ok ())))
      (submit p roomId membershipRevision id epoch contentType envelope recipientDeviceId) w := by
  refine always_remote.2 ⟨trivial, fun r h hr => ?_⟩
  cases r with
  | ok a => exact ⟨rfl, fun _ => ⟨_, ⟨rfl, rfl, rfl⟩, ⟨_, _, hr⟩⟩⟩
  | error err => exact ⟨rfl, nofun⟩

/-- What is done to one leaf makes a step of a change. -/
abbrev Steps (host : Host σ ρ) (roomId : Uuid) (w : World σ ρ) (change : Change σ)
    (o : Outcome (clientEffects σ) (Change σ)) (w' : World σ ρ) : Prop :=
  Same w w' ∧ ∀ change', o = .done change' → ChangeStep host roomId change change'

variable {change : Change σ}

theorem removal_spec {identity : Leaf} :
    Does host seen known (Steps host roomId w change)
      (removal p roomId membershipRevision change identity) w := by
  refine keeps_remote_bind (fun _ _ => ⟨rfl, nofun⟩) fun removed h hgives => ?_
  refine keeps_remote_bind (fun _ _ => ⟨rfl, nofun⟩) fun commitId h _ => ?_
  refine submit_spec.bind (fun _ w₁ h₁ => ?_) (fun _ _ h => ⟨h.1, nofun⟩) (fun _ h => ⟨h.1, nofun⟩)
  obtain ⟨input, ⟨hcommit, hepoch, rfl⟩, haccepted⟩ := h₁.2 rfl
  exact ⟨h₁.1, fun _ hdone => by cases hdone; exact .removal hgives hcommit hepoch haccepted⟩

theorem addition_spec {deviceId : Uuid} :
    Does host seen known (Steps host roomId w change)
      (addition p roomId membershipRevision change deviceId) w := by
  refine keeps_remote_bind (fun _ _ => ⟨rfl, nofun⟩) fun keyPackage h _ => ?_
  refine keeps_remote_bind (fun _ _ => ⟨rfl, nofun⟩) fun added h hgives => ?_
  refine keeps_remote_bind (fun _ _ => ⟨rfl, nofun⟩) fun commitId h _ => ?_
  refine submit_spec.bind (fun _ w₁ h₁ => ?_) (fun _ _ h => ⟨h.1, nofun⟩) (fun _ h => ⟨h.1, nofun⟩)
  obtain ⟨input, ⟨hcommit, hepoch, rfl⟩, haccepted⟩ := h₁.2 rfl
  have hsame : w₁.device = w.device := h₁.1
  refine keeps_remote_bind (fun _ _ => ⟨hsame, nofun⟩) fun welcomeId h _ => ?_
  refine submit_spec.bind (fun _ w₂ h₂ => ?_) (fun _ _ h => ⟨h.1.trans hsame, nofun⟩)
    (fun _ h => ⟨h.1.trans hsame, nofun⟩)
  exact ⟨h₂.1.trans hsame, fun _ hdone => by
    cases hdone; exact .addition hgives hcommit hepoch haccepted⟩

variable {roomId : Uuid}

theorem ChangeStep.isSome {change' : Change σ} (h : ChangeStep host roomId change change') :
    change'.2 ≠ none := by
  cases h <;> exact Option.some_ne_none _

/-- A loop over leaves makes a change, and a Commit where there are any. -/
theorem does_changes {γ : Type} {f : Change σ → γ → Act σ (Change σ)}
    (hf : ∀ change x (w : World σ ρ), Does host seen known (Steps host roomId w change)
      (f change x) w) (xs : List γ) (change : Change σ) :
    Does host seen known (fun o w' => Same w w' ∧ ∀ change', o = .done change' →
      Changed host roomId change change' ∧ (change'.2 = none → xs = []))
      (xs.foldlM f change) w := by
  have hloop := Action.Always.foldlM (G := nativePermits host seen known)
    (f := f) (P := fun rest change' w' => Same w w' ∧ Changed host roomId change change' ∧
      (change'.2 = none → rest = xs))
    (E := fun _ w' => Same w w') (R := fun w' => Same w w')
    (fun x xs change' w' h => (hf change' x w').imp fun o w'' ho => by
      have hsame : Same w w'' := ho.1.trans h.1
      cases o with
      | done change'' =>
        have hstep := ho.2 _ rfl
        exact ⟨hsame, h.2.1.tail hstep, fun hnone => absurd hnone hstep.isSome⟩
      | fail err => exact hsame
      | spent => exact hsame) xs change w ⟨rfl, .refl, fun _ => rfl⟩
  refine hloop.imp fun o w' ho => ?_
  cases o with
  | done change' => exact ⟨ho.1, fun _ h => by
      cases h; exact ⟨ho.2.1, fun hnone => (ho.2.2 hnone).symm⟩⟩
  | fail | spent => exact ⟨ho, nofun⟩

/-- The end of a change, where storing its state is permitted. -/
theorem finish_spec (hu : Upholds host seen known J) (hJ : J w.device) (hp : known p)
    (hwrite : change.2 ≠ none → NativeWrite host seen known w.device (.write change.1)) :
    Does host seen known (fun o w' => Quiet J w.device w' ∧
      (o = .done () → change.2 ≠ none → w'.device.state = some change.1))
      (finish p roomId change) w := by
  rw [finish]
  split
  case h_1 hnone => exact ⟨⟨hJ, rfl⟩, fun _ hsome => absurd hnone hsome⟩
  case h_2 last hsome =>
    have hw := hwrite (by rw [hsome]; exact Option.some_ne_none _)
    refine always_store_bind.2 ⟨hw, ?_⟩
    have hJ' := hu.keeps hJ hw
    exact always_store.2 ⟨.commit hp, ⟨hu.keeps hJ' (.commit hp), rfl⟩, fun _ _ => rfl⟩

variable {state : σ}

theorem bootstrap_spec (hu : Upholds host seen known J) (hJ : J w.device) {accountId revision : ℕ}
    (hp : known p) (hstate : w.device.state = some state) :
    Does host seen known (fun o w' => Quiet J w.device w' ∧
      ∀ state', o = .done state' → w'.device.state = some state')
      (bootstrap accountId roomId p state revision) w := by
  have hquiet : ∀ w', Same w w' → Quiet J w.device w' := fun w' hsame =>
    ⟨(congrArg J hsame).mpr hJ, congrArg _ hsame⟩
  refine keeps_remote_bind (fun _ _ => ⟨⟨hJ, rfl⟩, nofun⟩) fun memberDevices h _ => ?_
  dsimp only
  split
  case isTrue => exact ⟨⟨hJ, rfl⟩, nofun⟩
  case isFalse =>
    split
    case isTrue => exact ⟨⟨hJ, rfl⟩, nofun⟩
    case isFalse hdevices =>
      refine keeps_remote_bind (fun _ _ => ⟨⟨hJ, rfl⟩, nofun⟩) fun created h hcreated => ?_
      refine (does_changes (fun _ _ _ => addition_spec) _ _).bind (fun change w₁ h₁ => ?_)
        (fun _ w' h => ⟨hquiet w' h.1, nofun⟩) (fun w' h => ⟨hquiet w' h.1, nofun⟩)
      have hsame : w₁.device = w.device := h₁.1
      obtain ⟨hchanged, hnone⟩ := h₁.2 change rfl
      have hsome : change.2 ≠ none := fun h => hdevices (hnone h)
      refine (finish_spec hu ((congrArg J hsame).mpr hJ) hp fun hsome =>
        .created ((congrArg _ hsame).trans hstate) hcreated hchanged hsome).bind
        (fun _ w₂ h₂ => ?_) (fun _ w' h => ?_) (fun w' h => ?_)
      · exact ⟨⟨h₂.1.1, h₂.1.2.trans (congrArg _ hsame)⟩, fun _ hdone => by
          cases hdone; exact h₂.2 rfl hsome⟩
      · exact ⟨⟨h.1.1, h.1.2.trans (congrArg _ hsame)⟩, nofun⟩
      · exact ⟨⟨h.1.1, h.1.2.trans (congrArg _ hsame)⟩, nofun⟩

variable {platform : Platform}

theorem reconcileGroup_spec (hu : Upholds host seen known J) (hJ : J w.device) (hp : known p) :
    Does host seen known (fun _ w' => Quiet J w.device w')
      (reconcileGroup platform roomId p) w := by
  have hquiet : ∀ w', Same w w' → Quiet J w.device w' := fun w' hsame =>
    ⟨(congrArg J hsame).mpr hJ, congrArg _ hsame⟩
  refine keeps_remote_bind (fun _ _ => ⟨hJ, rfl⟩) fun roomEpoch h _ => ?_
  split
  case isFalse => exact ⟨hJ, rfl⟩
  case isTrue =>
    refine does_readState_bind (fun _ => ⟨hJ, rfl⟩) fun state hstate => ?_
    refine keeps_remote_bind (fun _ _ => ⟨hJ, rfl⟩) fun memberDevices h _ => ?_
    refine keeps_remote_bind (fun _ _ => ⟨hJ, rfl⟩) fun localMembers h _ => ?_
    refine (does_changes (fun _ _ _ => removal_spec) _ _).bind (fun removed w₁ h₁ => ?_)
      (fun _ w' h => hquiet w' h.1) (fun w' h => hquiet w' h.1)
    refine (does_changes (fun _ _ _ => addition_spec) _ _).bind (fun change w₂ h₂ => ?_)
      (fun _ w' h => hquiet w' (h.1.trans h₁.1)) (fun w' h => hquiet w' (h.1.trans h₁.1))
    have hsame : w₂.device = w.device := h₂.1.trans h₁.1
    refine (finish_spec hu ((congrArg J hsame).mpr hJ) hp fun hsome =>
      .group ((congrArg _ hsame).trans hstate)
        ((h₁.2 _ rfl).1.trans (h₂.2 _ rfl).1) hsome).imp fun _ w₃ h₃ => ?_
    exact ⟨h₃.1.1, h₃.1.2.trans (congrArg _ hsame)⟩

/-! ## The control messages of the others -/

theorem processControls_spec (roomId : Uuid) :
    ∀ (controls : List ControlMessage) (change : Change σ) (w : World σ ρ),
      Does host seen known (fun o w' => Same w w' ∧ ∀ change', o = .done change' →
        Processed host roomId controls change.1 change'.1 ∧
        (change.2.isSome = true → change'.2.isSome = true))
        (processControls roomId controls change) w
  | [], change, w => ⟨rfl, fun _ h => by cases h; exact ⟨.nil _, id⟩⟩
  | control :: rest, change, w => by
    rw [processControls]
    split
    case isFalse => exact ⟨rfl, nofun⟩
    case isTrue hcommit =>
      refine keeps_remote_bind (fun err h => ⟨rfl, nofun⟩) fun result h hok => ?_
      split
      case isFalse => exact ⟨rfl, nofun⟩
      case isTrue hepoch =>
        refine (processControls_spec roomId rest (result.1, some control.id) _).imp
          fun o w' ho => ⟨ho.1, fun change' hdone => ?_⟩
        obtain ⟨hprocessed, hsome⟩ := ho.2 change' hdone
        refine ⟨.cons hcommit ?_ hprocessed, fun _ => hsome rfl⟩
        rw [← hepoch]
        exact hok

variable {controls : List ControlMessage}

theorem joinControls_spec {index : ℕ} {welcome : ControlMessage}
    (hindex : welcomeIndex controls = some index) (hwelcome : controls[index]? = some welcome) :
    Does host seen known (fun o w' => Same w w' ∧ ∀ change', o = .done change' →
      Batched host roomId controls state change'.1 false ∧ change'.2.isSome = true)
      (joinControls roomId controls state index welcome) w := by
  rw [joinControls]
  cases hcommit : matchingCommit controls index welcome.epoch with
  | none => exact ⟨rfl, nofun⟩
  | some commit =>
    refine keeps_remote_bind (fun err h => ⟨rfl, nofun⟩) fun result h hok => ?_
    split
    case isFalse => exact ⟨rfl, nofun⟩
    case isTrue hepoch =>
      refine (processControls_spec roomId _ (result.1, some commit.id) _).imp
        fun o w' ho => ⟨ho.1, fun change' hdone => ?_⟩
      obtain ⟨hprocessed, hsome⟩ := ho.2 change' hdone
      refine ⟨.welcome hindex hwelcome hcommit ?_ hprocessed, hsome rfl⟩
      rw [← hepoch]
      exact hok

theorem applyControls_spec :
    Does host seen known (fun o w' => Same w w' ∧ ∀ change, o = .done (some change) →
      Batched host roomId controls state change.1 (p.joined roomId) ∧ change.2.isSome = true)
      (applyControls p roomId controls state) w := by
  rw [applyControls]
  split
  case isTrue hjoined =>
    rw [hjoined]
    refine keeps_map ((processControls_spec roomId controls
      (state, p.lastCommitMessageIds roomId) w).imp fun o w' ho => ?_)
    cases o with
    | done change =>
      obtain ⟨hprocessed, hsome⟩ := ho.2 _ rfl
      exact ⟨ho.1, fun _ h => by cases h; exact ⟨.member hprocessed, hsome hjoined⟩⟩
    | fail | spent => exact ⟨ho.1, nofun⟩
  case isFalse hjoined =>
    rw [Bool.eq_false_iff.2 hjoined]
    cases hindex : welcomeIndex controls with
    | none => exact ⟨rfl, nofun⟩
    | some index =>
      refine Action.always_bind.2 ?_
      cases hwelcome : controls[index]? with
      | none => exact ⟨rfl, nofun⟩
      | some welcome =>
        refine keeps_map ((joinControls_spec hindex hwelcome).imp fun o w' ho => ?_)
        cases o with
        | done change => exact ⟨ho.1, fun _ h => by cases h; exact ho.2 _ rfl⟩
        | _ => exact ⟨ho.1, nofun⟩

theorem consume_spec {p : DeviceProfile} {roomId : Uuid} :
    ∀ (controls : List ControlMessage) (w : World σ ρ),
      Does host seen known (fun _ w' => Same w w') (consume p roomId controls) w
  | [], w => rfl
  | control :: rest, w => by
    refine keeps_remote_bind (fun err h => rfl) fun _ h _ => ?_
    exact consume_spec rest { w with host := h }

theorem syncControls_spec (hu : Upholds host seen known J) (hJ : J w.device) (hp : known p) :
    Does host seen known (fun _ w' => Quiet J w.device w') (syncControls roomId p) w := by
  refine does_readState_bind (fun _ => ⟨hJ, rfl⟩) fun state hstate => ?_
  refine keeps_remote_bind (fun _ _ => ⟨hJ, rfl⟩) fun controls h hlist => ?_
  cases hlast : controls.getLast? with
  | none => exact ⟨hJ, rfl⟩
  | some last =>
    refine applyControls_spec.bind (fun next w₁ h₁ => ?_)
      (fun _ w' h => ⟨(congrArg J h.1).mpr hJ, congrArg _ h.1⟩)
      (fun w' h => ⟨(congrArg J h.1).mpr hJ, congrArg _ h.1⟩)
    have hsame : w₁.device = w.device := h₁.1
    have hJ₁ : J w₁.device := (congrArg J hsame).mpr hJ
    cases next with
    | none => exact ⟨hJ₁, congrArg _ hsame⟩
    | some change =>
      obtain ⟨hbatch, hcommit⟩ := h₁.2 change rfl
      obtain ⟨commitId, hcommitId⟩ := Option.isSome_iff_exists.1 hcommit
      have hw : NativeWrite host seen known w₁.device (.write change.1) :=
        .controls ((congrArg _ hsame).trans hstate) hp hlist hlast hbatch
      have hJ₂ := hu.keeps hJ₁ hw
      refine always_store_bind.2 ⟨hw, ?_⟩
      rw [hcommitId]
      have hp' : ∀ s, NativeWrite host seen known s (.writeDeviceProfile
          (syncedProfile p roomId last.sequenceNo (some commitId))) :=
        fun s => .cursor (hu.states hJ hstate) hp hlist hlast hbatch
      have hJ₃ := hu.keeps hJ₂ (hp' _)
      refine always_store_bind.2 ⟨hp' _, ?_⟩
      refine (consume_spec controls _).imp fun _ w₂ h₂ => ?_
      have hsame₂ : w₂.device = _ := h₂
      exact ⟨(congrArg J hsame₂).mpr hJ₃,
        (congrArg metadata hsame₂ :).trans (congrArg metadata hsame :)⟩

/-! ## Application messages -/

/-- The invariant holds, and what is kept to be sent is as on the device `s`. -/
def Calm (J : DeviceStore σ → Prop) (s : DeviceStore σ) (w' : World σ ρ) : Prop :=
  J w'.device ∧ w'.device.pendingApplication = s.pendingApplication

theorem Quiet.calm {s : DeviceStore σ} {w' : World σ ρ} (h : Quiet J s w') : Calm J s w' :=
  ⟨h.1, congrArg (fun m : Option (DirectMessageMetadata σ) => m.bind (·.pendingApplication)) h.2⟩

theorem Calm.trans {s : DeviceStore σ} {w' w'' : World σ ρ} (h : Calm J s w')
    (h' : Calm J w'.device w'') : Calm J s w'' :=
  ⟨h'.1, h'.2.trans h.2⟩

variable (hu : Upholds host seen known J)

include hu

theorem writeMetadata_spec (hJ : J w.device) (metadata : DirectMessageMetadata σ)
    (hm : metadata.pendingApplication = w.device.pendingApplication) :
    Does host seen known (fun _ w' => Calm J w.device w') (store (.writeMetadata metadata)) w :=
  always_store.2 ⟨.metadata hm, hu.keeps hJ (.metadata hm), hm⟩

theorem verifyIdentity_spec (hJ : J w.device) (peerUserId : Uuid) :
    Does host seen known (fun _ w' => Calm J w.device w') (verifyIdentity peerUserId) w := by
  refine keeps_remote_bind (fun _ _ => ⟨hJ, rfl⟩) fun identity h _ => ?_
  split
  case isTrue => exact ⟨hJ, rfl⟩
  case isFalse =>
    refine does_readMetadata_bind fun metadata hm => ?_
    have hcalm : Calm J w.device { w with host := h } := ⟨hJ, rfl⟩
    split
    · split <;> exact hcalm
    · exact writeMetadata_spec hu hcalm.1 _ hm

theorem verifyIdentities_spec :
    ∀ (users : List Uuid) (w : World σ ρ), J w.device →
      Does host seen known (fun _ w' => Calm J w.device w') (verifyIdentities users) w
  | [], _, hJ => ⟨hJ, rfl⟩
  | userId :: rest, w, hJ => by
    rw [verifyIdentities]
    refine (verifyIdentity_spec hu hJ userId).bind (fun _ w₁ h₁ => ?_) (fun _ _ h => h)
      (fun _ h => h)
    exact (verifyIdentities_spec rest w₁ h₁.1).imp fun _ _ h => h₁.trans h

omit hu in
theorem pendingApplication_rememberAttachmentParts (platform : Platform)
    (metadata : DirectMessageMetadata σ) (messageId : Uuid) (parts : List AttachmentPart) :
    (rememberAttachmentParts platform metadata messageId parts).pendingApplication
      = metadata.pendingApplication := by
  rw [rememberAttachmentParts]
  split <;> rfl

theorem resumePendingSend_spec (hJ : J w.device) :
    Does host seen known (fun _ w' => J w'.device) (resumePendingSend platform) w := by
  refine does_readMetadata_bind fun metadata hm => ?_
  cases hpending : metadata.pendingApplication with
  | none => exact hJ
  | some pending =>
    refine keeps_remote_bind (fun _ _ => hJ) fun messageId h _ => ?_
    have hpending' : w.device.pendingApplication = some pending := hm.symm.trans hpending
    have hJ₁ := hu.keeps hJ (.sent hpending')
    refine always_store_bind.2 ⟨.sent hpending', ?_⟩
    have hw : NativeWrite host seen known (w.device.perform (.write pending.nextState)).2
        (.writeMetadata (rememberAttachmentParts platform
          { metadata with pendingApplication := none } messageId pending.attachmentParts)) :=
      .cleared hpending' rfl (pendingApplication_rememberAttachmentParts ..)
    exact always_store_bind.2 ⟨hw, hu.keeps hJ₁ hw⟩

/-- The lifecycle keeps the invariant. -/
theorem ensureReady_upheld (hJ : J w.device) (accountId : Uuid) (deviceLabel : String) :
    Does host seen known (fun o w' => Quiet J w.device w' ∧
      ∀ a, o = .done a → Stands a.1 a.2 w'.device) (ensureReady accountId deviceLabel) w := by
  refine ((ensureReady_spec (G := nativePermits host seen known) accountId deviceLabel).invariant
    (I := fun w => J w.device) (fun w e r w' hJ hG he => ?_) hJ).mono (fun _ _ h => h.2)
    fun o w' h => ⟨⟨h.1, h.2.1.2⟩, h.2.2⟩
  cases e with
  | storage e =>
    obtain ⟨-, rfl⟩ := he
    exact hu.keeps hJ hG
  | remote e =>
    obtain ⟨h, -, rfl⟩ := he
    exact hJ

variable {input : SendInput}

omit hu in
theorem peers_spec : Does host seen known (fun _ w' => Same w w') (peers platform input) w := by
  rw [peers]
  split
  · exact rfl
  · exact keeps_remote_bind (fun _ _ => rfl) fun memberDevices h _ => rfl

theorem ensureGroup_spec (hJ : J w.device) (hp : known p) (hstate : w.device.state = some state) :
    Does host seen known (fun o w' => Calm J w.device w' ∧
      ∀ a, o = .done a → w'.device.state = some a.1) (ensureGroup input p state) w := by
  refine keeps_remote_bind (fun _ _ => ⟨⟨hJ, rfl⟩, nofun⟩) fun epoch h _ => ?_
  split
  case isFalse => exact ⟨⟨hJ, rfl⟩, fun a hdone => by cases hdone; exact hstate⟩
  case isTrue =>
    have hbootstrap : ∀ w₁ : World σ ρ, J w₁.device → w₁.device.state = some state →
        Does host seen known (fun o w' => Quiet J w₁.device w' ∧
          ∀ state', o = .done state' → w'.device.state = some state')
          (bootstrap input.accountId input.roomId p state epoch.membershipRevision) w₁ :=
      fun w₁ hJ₁ hstate₁ => bootstrap_spec hu hJ₁ hp hstate₁
    refine (hbootstrap { w with host := h } hJ hstate).bind (fun created w₁ h₁ => ?_)
      (fun _ _ h => ⟨h.1.calm, nofun⟩) (fun _ h => ⟨h.1.calm, nofun⟩)
    have hcalm : Calm J w.device w₁ := h₁.1.calm
    refine keeps_remote_bind (fun _ _ => ⟨hcalm, nofun⟩) fun epoch h _ => ?_
    exact ⟨hcalm, fun a hdone => by cases hdone; exact h₁.2 _ rfl⟩

omit hu in
/-- Nothing is pending, and the metadata that are returned say so. -/
theorem requireNothingPending_spec :
    Does host seen known (fun o w' => Same w w' ∧ ∀ m : DirectMessageMetadata σ, o = .done m →
      w.device.pendingApplication = none) requireNothingPending w := by
  refine does_readMetadata_bind fun metadata hm => ?_
  split
  case isTrue => exact ⟨rfl, nofun⟩
  case isFalse hnone =>
    exact ⟨rfl, fun _ _ => hm.symm.trans (Option.not_isSome_iff_eq_none.1 hnone)⟩

omit hu in
theorem pendingSlot_spec :
    Does host seen known (fun o w' => Same w w' ∧ ∀ a, o = .done a →
      w.device.pendingApplication = none) (pendingSlot platform) w := by
  rw [pendingSlot]
  split
  case isTrue =>
    refine requireNothingPending_spec.bind (fun metadata w₁ h₁ => ?_)
      (fun _ _ h => ⟨h.1, nofun⟩) (fun _ h => ⟨h.1, nofun⟩)
    exact keeps_remote_bind (fun _ _ => ⟨h₁.1, nofun⟩) fun key h _ => ⟨h₁.1, fun _ _ => h₁.2 _ rfl⟩
  case isFalse =>
    refine keeps_remote_bind (fun _ _ => ⟨rfl, nofun⟩) fun key h _ => ?_
    exact requireNothingPending_spec.bind (fun metadata w₁ h₁ => ⟨h₁.1, fun _ _ => h₁.2 _ rfl⟩)
      (fun _ _ h => ⟨h.1, nofun⟩) (fun _ h => ⟨h.1, nofun⟩)

theorem keepPending_spec (hJ : J w.device) {epoch : RoomEpoch}
    (hstate : w.device.state = some state) :
    Does host seen known (fun _ w' => J w'.device) (keepPending platform input p state epoch)
      w := by
  rw [keepPending]
  split
  case isFalse => exact hJ
  case isTrue =>
    refine does_readProfile_bind (fun _ => hJ) fun refreshed _ => ?_
    cases refreshed.lastCommitMessageIds input.roomId with
    | none => exact hJ
    | some commitId =>
      refine keeps_remote_bind (fun _ _ => hJ) fun encrypted h hgives => ?_
      split
      case isFalse => exact hJ
      case isTrue =>
        refine pendingSlot_spec.bind (fun slot w₁ h₁ => ?_)
          (fun _ _ h => (congrArg J h.1).mpr hJ) (fun _ h => (congrArg J h.1).mpr hJ)
        have hsame : w₁.device = w.device := h₁.1
        have hJ₁ : J w₁.device := (congrArg J hsame).mpr hJ
        have hnone : w₁.device.pendingApplication = none := (congrArg _ hsame).trans (h₁.2 slot rfl)
        have hw : NativeWrite host seen known w₁.device (.writeMetadata { slot.1 with
            pendingApplication := some
              { roomId := input.roomId, senderDeviceId := p.deviceId,
                epoch := encrypted.epoch, ciphertext := encrypted.ciphertext,
                nextState := encrypted.state, idempotencyKey := slot.2,
                controlMessageId := commitId, attachmentParts := input.attachmentParts } }) :=
          .kept hnone ((congrArg _ hsame).trans hstate) hgives rfl rfl
        exact always_store.2 ⟨hw, hu.keeps hJ₁ hw⟩

theorem prepareAndSend_spec (hJ : J w.device) :
    Does host seen known (fun _ w' => J w'.device) (prepareAndSend platform input) w := by
  refine (ensureReady_upheld hu hJ input.accountId input.deviceLabel).bind
    (fun ready w₁ h₁ => ?_) (fun _ _ h => h.1.1) (fun _ h => h.1.1)
  have hp : known ready.1 := hu.profiles h₁.1.1 (h₁.2 ready rfl).1
  have hJ₁ : J w₁.device := h₁.1.1
  rw [requireActive]
  split
  case isFalse => exact hJ₁
  case isTrue =>
    refine peers_spec.bind (fun users w₂ h₂ => ?_) (fun _ _ h => (congrArg J h).mpr hJ₁)
      (fun _ h => (congrArg J h).mpr hJ₁)
    have hJ₂ : J w₂.device := (congrArg J h₂).mpr hJ₁
    refine (verifyIdentities_spec hu users w₂ hJ₂).bind (fun _ w₃ h₃ => ?_) (fun _ _ h => h.1)
      (fun _ h => h.1)
    refine (syncControls_spec hu h₃.1 hp).bind (fun _ w₄ h₄ => ?_) (fun _ _ h => h.1)
      (fun _ h => h.1)
    refine (reconcileGroup_spec hu h₄.1 hp).bind (fun _ w₅ h₅ => ?_) (fun _ _ h => h.1)
      (fun _ h => h.1)
    refine does_readState_bind (fun _ => h₅.1) fun state hstate => ?_
    refine (ensureGroup_spec hu h₅.1 hp hstate).bind (fun group w₆ h₆ => ?_)
      (fun _ _ h => h.1.1) (fun _ h => h.1.1)
    refine (keepPending_spec hu h₆.1.1 (h₆.2 group rfl)).bind (fun _ w₇ h₇ => ?_)
      (fun _ _ h => h) (fun _ h => h)
    exact (resumePendingSend_spec hu h₇).bind (fun _ _ h => h) (fun _ _ h => h) (fun _ h => h)

variable {metadata : DirectMessageMetadata σ}

theorem rememberMessage_spec (hJ : J w.device) {messageId : Uuid}
    (hm : metadata.pendingApplication = w.device.pendingApplication) :
    Does host seen known (fun _ w' => Calm J w.device w')
      (rememberMessage metadata roomId messageId) w :=
  writeMetadata_spec hu hJ _ hm

theorem decryptCiphertext_spec (hJ : J w.device) {input : IncomingMessage} {ciphertext : Bytes}
    (hm : metadata.pendingApplication = w.device.pendingApplication) :
    Does host seen known (fun _ w' => J w'.device)
      (decryptCiphertext platform metadata input ciphertext) w := by
  refine does_readState_bind (fun _ => hJ) fun state hstate => ?_
  refine Action.always_bind.2 (Action.always_attempt.2 (always_remote.2
    ⟨trivial, fun r h hr => ?_⟩))
  cases r with
  | error err => exact hJ
  | ok decrypted =>
    dsimp only
    split
    · exact hJ
    · split
      · exact hJ
      · have hw : NativeWrite host seen known w.device (.write decrypted.state) :=
          .decrypted hstate ⟨_, _, hr⟩
        refine always_store_bind.2 ⟨hw, ?_⟩
        exact Action.Always.imp (rememberMessage_spec hu (hu.keeps hJ hw)
          ((pendingApplication_rememberAttachmentParts ..).trans hm)) fun _ _ h => h.1

theorem decryptIncoming_spec (hJ : J w.device) {accountId : Uuid} {deviceLabel : String}
    {input : IncomingMessage} :
    Does host seen known (fun _ w' => J w'.device)
      (decryptIncoming platform accountId deviceLabel input) w := by
  refine does_readMetadata_bind fun metadata hm => ?_
  split
  case isTrue => exact hJ
  case isFalse =>
    split
    · split
      · exact hJ
      · exact (rememberMessage_spec hu hJ hm).imp fun _ _ h => h.1
    · split
      · exact hJ
      · refine (ensureReady_upheld hu hJ accountId deviceLabel).bind
          (fun ready w₁ h₁ => ?_) (fun _ _ h => h.1.1) (fun _ h => h.1.1)
        have hp : known ready.1 := hu.profiles h₁.1.1 (h₁.2 ready rfl).1
        rw [requireActive]
        split
        case isFalse => exact h₁.1.1
        case isTrue =>
          refine (syncControls_spec hu h₁.1.1 hp).bind (fun _ w₂ h₂ => ?_) (fun _ _ h => h.1)
            (fun _ h => h.1)
          exact decryptCiphertext_spec hu h₂.1 (hm.trans (h₁.1.calm.trans h₂.calm).2.symm)

end

end Native

/-! ## Every run -/

section

variable {host : Host σ ρ} {seen : σ → Prop} {known : DeviceProfile → Prop}
  {J : DeviceStore σ → Prop} {w : World σ ρ}

/-- **Every call of a native coordinator** writes as permitted, and keeps the invariant. -/
theorem NativeCall.upheld (hu : Native.Upholds host seen known J) (hJ : J w.device)
    (platform : Platform) (accountId : Uuid) (call : NativeCall) :
    Native.Does host seen known (fun _ w' => J w'.device)
      (call.action platform accountId : Act σ Unit) w := by
  cases call with
  | sendText deviceLabel roomId peerUserId text =>
    dsimp only [NativeCall.action]
    split
    · exact hJ
    · exact Native.prepareAndSend_spec hu hJ
  | sendAttachment deviceLabel roomId peerUserId parts text =>
    dsimp only [NativeCall.action]
    split
    · exact hJ
    · split
      · exact Native.prepareAndSend_spec hu hJ
      · exact hJ
  | retryPendingSend =>
    exact (Native.resumePendingSend_spec hu hJ).bind (fun _ _ h => h) (fun _ _ h => h)
      (fun _ h => h)
  | decryptIncoming deviceLabel input => exact Native.decryptIncoming_spec hu hJ
  | reconcileGroup roomId =>
    refine Native.does_readProfile_bind (fun _ => hJ) fun p hp => ?_
    exact (Native.reconcileGroup_spec hu hJ (hu.profiles hJ hp)).imp fun _ _ h => h.1
  | _ => exact Native.does_readMetadata_bind fun _ _ => hJ

/-- What can be left of a world by calls of a native coordinator, one after another, each of
them run to its end or to any other point, where every effect meets a condition. -/
inductive NativeVisits (host : Host σ ρ) (condition : World σ ρ → Effect σ → Prop)
    (platform : Platform) (accountId : Uuid) (w : World σ ρ) : World σ ρ → Prop where
  | refl : NativeVisits host condition platform accountId w w
  | call {w' w'' : World σ ρ} {call : NativeCall} {events : List (Event (clientEffects σ))}
      {rest : Act σ Unit} (h : NativeVisits host condition platform accountId w w')
      (hrun : Action.Run (fun w e r w' => condition w e ∧ host.env w e r w')
        (call.action platform accountId) w' events rest w'') :
      NativeVisits host condition platform accountId w w''

variable {condition : World σ ρ → Effect σ → Prop} {platform : Platform} {accountId : Uuid}
  {w' : World σ ρ}

/-- An invariant of the writes is one of all calls. -/
theorem NativeVisits.upheld (hu : Native.Upholds host seen known J)
    (h : NativeVisits host condition platform accountId w w') (hJ : J w.device) : J w'.device := by
  induction h with
  | refl => exact hJ
  | call _ hrun ih =>
    refine ((NativeCall.upheld hu ih platform accountId _).mono_env fun _ _ _ _ h => h.2).holds
      (I := fun w => J w.device) (fun w e r w' hJ hG he => ?_) ih hrun
    cases e with
    | storage e =>
      obtain ⟨-, -, rfl⟩ := he
      exact hu.keeps hJ hG
    | remote e =>
      obtain ⟨-, h, -, rfl⟩ := he
      exact hJ

/-- What the writes keep where a condition is met, all calls keep that meet it. -/
theorem NativeVisits.holds (h : NativeVisits host condition platform accountId w w')
    (hkeep : ∀ w e, J w.device →
      NativeWrite host (fun _ => True) (fun _ => True) w.device e →
      condition w (.storage e) → J (w.device.perform e).2) (hJ : J w.device) : J w'.device := by
  have hu : Native.Upholds host (fun _ => True) (fun _ => True) (fun _ => True) :=
    ⟨fun _ _ => trivial, fun _ _ => trivial, fun _ _ => trivial⟩
  induction h with
  | refl => exact hJ
  | call _ hrun ih =>
    refine ((NativeCall.upheld hu trivial platform accountId _).mono_env
      fun _ _ _ _ h => h.2).holds (I := fun w => J w.device) (fun w e r w' hJ hG he => ?_) ih hrun
    cases e with
    | storage e =>
      obtain ⟨hcondition, -, rfl⟩ := he
      exact hkeep _ _ hJ hG hcondition
    | remote e =>
      obtain ⟨-, h, -, rfl⟩ := he
      exact hJ

/-- With a host that answers in one way, a call leads where it is executed to. -/
theorem NativeVisits.exec {f : ρ → (e : RemoteEffect σ) → Answer e × ρ}
    (h : NativeVisits (Host.of f) (fun _ _ => True) platform accountId w w') (call : NativeCall) :
    NativeVisits (Host.of f) (fun _ _ => True) platform accountId w
      (Action.exec (worldHandler f) (call.action platform accountId) w').2 := by
  obtain ⟨events, hrun⟩ := Action.run_exec (h := worldHandler f) (call.action platform accountId) w'
  rw [env_worldHandler] at hrun
  exact .call h (hrun.mono fun _ _ _ _ he => ⟨trivial, he⟩)

end

end RedcodeIm
