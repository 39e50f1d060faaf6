import RedcodeIm.Coordinator.DeviceLifecycle

/-!
# What a client promises of its writes

A program of a client is followed from effect to effect: what it awaits is to be allowed by a
guarantee, and every answer the storage or the host can give is met.

* `Host.Gives` — an answer the host can give.
* `Lenient` — a guarantee that restricts nothing but the writes of the account state, the
  profile and what is pending.
* `LifecycleWrite`, `ensureReady_spec` — what `ensureReady` writes, and what it returns.
-/

namespace RedcodeIm

open Awaiting

variable {σ ρ : Type}

/-- The host can answer so. -/
def Host.Gives (host : Host σ ρ) (e : RemoteEffect σ) (r : Answer e) : Prop :=
  ∃ h h', host h e r h'

/-- The storage is only read, or the trust records are written. -/
def StorageEffect.Inert : StorageEffect σ → Prop
  | .read | .readDeviceProfile | .readPendingOperation | .readRecords | .readMetadata => True
  | .writeRecords _ => True
  | _ => False

theorem StorageEffect.Inert.metadata {s : DeviceStore σ} {e : StorageEffect σ} (h : e.Inert) :
    (s.perform e).2.metadata = s.metadata := by
  cases e with
  | writeMetadata metadata => cases h
  | _ => rfl

/-- A guarantee that leaves reading free, and everything that is not the storage. -/
class Lenient (G : World σ ρ → Effect σ → Prop) : Prop where
  inert : ∀ {w : World σ ρ} {e : StorageEffect σ}, e.Inert → G w (.storage e)
  remote : ∀ {w : World σ ρ} {e : RemoteEffect σ}, G w (.remote e)

section

variable {host : Host σ ρ} {G : World σ ρ → Effect σ → Prop} [Lenient G] {α : Type}
  {Q : Outcome (clientEffects σ) α → World σ ρ → Prop} {w : World σ ρ}

theorem keeps_inert_bind {e : StorageEffect σ} {f : e.Reply → Act σ α} (he : e.Inert)
    (hsame : (w.device.perform e).2 = w.device)
    (h : Action.Always host.env G Q (f (w.device.perform e).1) w) :
    Action.Always host.env G Q (store e >>= f) w := by
  refine always_store_bind.2 ⟨Lenient.inert he, ?_⟩
  rw [hsame]
  exact h

theorem keeps_remote_bind {e : RemoteEffect σ} {f : e.Reply → Act σ α}
    (hfail : ∀ err h, Q (.fail err) { w with host := h })
    (hok : ∀ a h, host.Gives e (.ok a) →
      Action.Always host.env G Q (f a) { w with host := h }) :
    Action.Always host.env G Q (remote e >>= f) w := by
  refine always_remote_bind.2 ⟨Lenient.remote, fun r h hr => ?_⟩
  cases r with
  | ok a => exact hok a h ⟨_, _, hr⟩
  | error err => exact hfail err h

omit [Lenient G] in
/-- A result passed through a function. -/
theorem keeps_map {α β : Type} {p : Act σ α} {f : α → β}
    {Q : Outcome (clientEffects σ) β → World σ ρ → Prop}
    (h : Action.Always host.env G (fun o w' => match o with
      | .done a => Q (.done (f a)) w'
      | .fail err => Q (.fail err) w'
      | .spent => Q .spent w') p w) : Action.Always host.env G Q (f <$> p) w := by
  refine Action.always_bind.2 (h.imp fun o w' ho => ?_)
  cases o <;> exact ho

end

/-- The device is as in the world `w`. -/
abbrev Same (w w' : World σ ρ) : Prop := w'.device = w.device

/-! ## `ensureReady` -/

/-- What `ensureReady` may write to a device. -/
inductive LifecycleWrite (host : Host σ ρ) (s : DeviceStore σ) : StorageEffect σ → Prop where
  /-- A device without an account state is set up. -/
  | newProfile {p : DeviceProfile} (h : s.state = none) :
      LifecycleWrite host s (.writeDeviceProfile p)
  | newState {state : σ} (h : s.state = none) : LifecycleWrite host s (.write state)
  /-- What is written to a profile says nothing of the rooms. -/
  | status {p p' : DeviceProfile} (h : s.profile = some p)
      (hsequences : p'.lastControlSequences = p.lastControlSequences)
      (hcommits : p'.lastCommitMessageIds = p.lastCommitMessageIds) :
      LifecycleWrite host s (.writeDeviceProfile p')
  | keyPackage {state : σ} {generated : σ × Bytes} (h : s.state = some state)
      (hgives : host.Gives (.core (.generateKeyPackage state)) (.ok generated)) :
      LifecycleWrite host s (.write generated.1)

theorem LifecycleWrite.metadata {host : Host σ ρ} {s : DeviceStore σ} {e : StorageEffect σ}
    (h : LifecycleWrite host s e) : (s.perform e).2.metadata = s.metadata := by
  cases h <;> rfl

/-- A guarantee that allows what `ensureReady` writes. -/
class Setup (host : Host σ ρ) (G : World σ ρ → Effect σ → Prop) : Prop extends Lenient G where
  lifecycle : ∀ {w : World σ ρ} {e : StorageEffect σ}, LifecycleWrite host w.device e →
    G w (.storage e)

section

variable {host : Host σ ρ} {G : World σ ρ → Effect σ → Prop} [Setup host G] {w : World σ ρ}

variable (host) in
theorem lifecycle_allowed {e : StorageEffect σ} (h : LifecycleWrite host w.device e) :
    G w (.storage e) :=
  Setup.lifecycle h

/-- What the lifecycle has nothing to do with is as it was on the device `s`. -/
def SetApart (s s' : DeviceStore σ) : Prop := s'.pending = s.pending ∧ s'.metadata = s.metadata

theorem SetApart.trans {s s' s'' : DeviceStore σ} (h : SetApart s s') (h' : SetApart s' s'') :
    SetApart s s'' :=
  ⟨h'.1.trans h.1, h'.2.trans h.2⟩

omit [Setup host G] in
theorem setApart_of_same {w w' : World σ ρ} (h : Same w w') : SetApart w.device w'.device :=
  ⟨congrArg _ h, congrArg _ h⟩

/-- A program of the lifecycle keeps apart, and its result is what is stored. -/
abbrev Ready {α : Type} (s : DeviceStore σ) (stored : α → DeviceStore σ → Prop)
    (o : Outcome (clientEffects σ) α) (w' : World σ ρ) : Prop :=
  SetApart s w'.device ∧ ∀ a, o = .done a → stored a w'.device

/-- A profile and a state are the ones that are stored. -/
abbrev Stands (p : DeviceProfile) (state : σ) (s : DeviceStore σ) : Prop :=
  s.profile = some p ∧ s.state = some state

theorem fetchRootPublicKey_spec (accountId : Uuid) :
    Action.Always host.env G (fun _ w' => Same w w') (fetchRootPublicKey accountId) w := by
  refine Action.always_bind.2 (Action.always_attempt.2 (always_remote.2
    ⟨Lenient.remote, fun r h _ => ?_⟩))
  cases r with
  | ok identity => exact rfl
  | error err =>
    dsimp only
    split <;> exact rfl

theorem profileOrNew_spec (deviceLabel : String) (stored : Option DeviceProfile) :
    Action.Always host.env G (fun _ w' => Same w w') (profileOrNew deviceLabel stored) w := by
  cases stored with
  | some profile => exact rfl
  | none =>
    refine keeps_map (always_remote.2 ⟨Lenient.remote, fun r h _ => ?_⟩)
    cases r <;> exact rfl

theorem ensureMaterial_spec (accountId : Uuid) (deviceLabel : String) :
    Action.Always host.env G (Ready w.device fun a => Stands a.1 a.2.1)
      (ensureMaterial accountId deviceLabel) w := by
  refine keeps_inert_bind trivial rfl (keeps_inert_bind trivial rfl ?_)
  simp only [DeviceStore.perform]
  cases hstate : w.device.state with
  | some state =>
    cases hprofile : w.device.profile with
    | none => exact ⟨⟨rfl, rfl⟩, nofun⟩
    | some profile =>
      refine keeps_remote_bind (fun err h => ⟨⟨rfl, rfl⟩, nofun⟩) fun restored h _ => ?_
      exact ⟨⟨rfl, rfl⟩, fun a hdone => by cases hdone; exact ⟨hprofile, hstate⟩⟩
  | none =>
    dsimp only
    split
    case isTrue => exact ⟨⟨rfl, rfl⟩, nofun⟩
    case isFalse =>
      refine (fetchRootPublicKey_spec accountId).bind (fun rootPublicKey w₁ h₁ => ?_)
        (fun _ _ h => ⟨setApart_of_same h, nofun⟩) (fun _ h => ⟨setApart_of_same h, nofun⟩)
      refine (profileOrNew_spec deviceLabel _).bind (fun profile w₂ h₂ => ?_)
        (fun _ _ h => ⟨setApart_of_same (h.trans h₁), nofun⟩)
        (fun _ h => ⟨setApart_of_same (h.trans h₁), nofun⟩)
      have hsame : Same w w₂ := h₂.trans h₁
      have hnone : w₂.device.state = none := (congrArg _ hsame).trans hstate
      have hapart := setApart_of_same hsame
      refine always_store_bind.2 ⟨lifecycle_allowed host (.newProfile hnone), ?_⟩
      refine keeps_remote_bind (fun err h => ⟨hapart, nofun⟩) fun made h _ => ?_
      refine always_store_bind.2 ⟨lifecycle_allowed host (.newState hnone), ?_⟩
      exact ⟨hapart, fun a hdone => by cases hdone; exact ⟨rfl, rfl⟩⟩

theorem ensureRegistered_spec {profile : DeviceProfile} {material : RegistrationMaterial}
    {state : σ} (h : Stands profile state w.device) :
    Action.Always host.env G (Ready w.device fun p => Stands p state)
      (ensureRegistered profile material) w := by
  rw [ensureRegistered]
  split
  case isTrue => exact ⟨⟨rfl, rfl⟩, fun p hdone => by cases hdone; exact h⟩
  case isFalse =>
    refine keeps_remote_bind (fun err h => ⟨⟨rfl, rfl⟩, nofun⟩) fun status _ _ => ?_
    refine always_store_bind.2 ⟨lifecycle_allowed host (.status h.1 ?_ ?_), ?_⟩
    · split <;> rfl
    · split <;> rfl
    · exact ⟨⟨rfl, rfl⟩, fun p hdone => by cases hdone; exact ⟨rfl, h.2⟩⟩

theorem ensureApproved_spec {profile : DeviceProfile} {state : σ}
    (h : Stands profile state w.device) :
    Action.Always host.env G (Ready w.device fun p => Stands p state)
      (ensureApproved profile) w := by
  rw [ensureApproved]
  split
  case isFalse => exact ⟨⟨rfl, rfl⟩, fun p hdone => by cases hdone; exact h⟩
  case isTrue =>
    refine keeps_remote_bind (fun err h => ⟨⟨rfl, rfl⟩, nofun⟩) fun devices _ _ => ?_
    split
    case isFalse => exact ⟨⟨rfl, rfl⟩, fun p hdone => by cases hdone; exact h⟩
    case isTrue =>
      refine always_store_bind.2 ⟨lifecycle_allowed host (.status h.1 rfl rfl), ?_⟩
      exact ⟨⟨rfl, rfl⟩, fun p hdone => by cases hdone; exact ⟨rfl, h.2⟩⟩

theorem ensurePublished_spec {profile : DeviceProfile} {state : σ}
    (h : Stands profile state w.device) :
    Action.Always host.env G (Ready w.device fun a => Stands a.1 a.2)
      (ensurePublished profile state) w := by
  rw [ensurePublished]
  split
  case isFalse => exact ⟨⟨rfl, rfl⟩, fun a hdone => by cases hdone; exact h⟩
  case isTrue =>
    refine keeps_remote_bind (fun err h => ⟨⟨rfl, rfl⟩, nofun⟩) fun generated _ hok => ?_
    refine always_store_bind.2 ⟨lifecycle_allowed host (.keyPackage h.2 hok), ?_⟩
    refine keeps_remote_bind (fun err h => ⟨⟨rfl, rfl⟩, nofun⟩) fun _ _ _ => ?_
    refine always_store_bind.2 ⟨lifecycle_allowed host (.status h.1 rfl rfl), ?_⟩
    exact ⟨⟨rfl, rfl⟩, fun a hdone => by cases hdone; exact ⟨rfl, rfl⟩⟩

/-- **`ensureReady`** writes what the lifecycle may write, and returns what is stored. -/
theorem ensureReady_spec (accountId : Uuid) (deviceLabel : String) :
    Action.Always host.env G (Ready w.device fun a => Stands a.1 a.2)
      (ensureReady accountId deviceLabel) w := by
  refine (ensureMaterial_spec accountId deviceLabel).bind (fun material w₁ h₁ => ?_)
    (fun _ _ h => ⟨h.1, nofun⟩) (fun _ h => ⟨h.1, nofun⟩)
  have hstands₁ := h₁.2 material rfl
  refine (ensureRegistered_spec hstands₁).bind (fun profile w₂ h₂ => ?_)
    (fun _ _ h => ⟨h₁.1.trans h.1, nofun⟩) (fun _ h => ⟨h₁.1.trans h.1, nofun⟩)
  have hstands₂ := h₂.2 profile rfl
  have hapart₂ := h₁.1.trans h₂.1
  split
  case isTrue => exact ⟨hapart₂, fun a hdone => by cases hdone; exact hstands₂⟩
  case isFalse =>
    refine (ensureApproved_spec hstands₂).bind (fun approved w₃ h₃ => ?_)
      (fun _ _ h => ⟨hapart₂.trans h.1, nofun⟩) (fun _ h => ⟨hapart₂.trans h.1, nofun⟩)
    exact (ensurePublished_spec (h₃.2 approved rfl)).imp fun _ w₄ h₄ =>
      ⟨hapart₂.trans (h₃.1.trans h₄.1), h₄.2⟩

end

end RedcodeIm
