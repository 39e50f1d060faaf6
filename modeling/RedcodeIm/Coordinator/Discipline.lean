import RedcodeIm.Coordinator.DirectMessage
import RedcodeIm.Coordinator.Guarantee

/-!
# What the coordinator does to the device

Every write of the coordinator to the local storage, with what it knows when it writes.

* `Processed`, `Batched`, `DraftStep` — how the coordinator gets from one account state to
  another.
* `Permitted` — the writes.
* `syncControls_permitted`, `CoordinatorCall.permitted` — the coordinator makes no others,
  and a call that ends well leaves nothing pending.
-/

namespace RedcodeIm

open Awaiting

variable {σ ρ : Type}

/-! ## Account states -/

/-- The Commits have been processed one after another. -/
inductive Processed (host : Host σ ρ) (roomId : Uuid) : List ControlMessage → σ → σ → Prop where
  | nil (state : σ) : Processed host roomId [] state state
  | cons {message : ControlMessage} {rest : List ControlMessage} {state state' state'' : σ}
      (hcommit : message.contentType = .commit)
      (hgives : host.Gives (.core (.processCommit state roomId message.envelope))
        (.ok (state', message.epoch)))
      (hrest : Processed host roomId rest state' state'') :
      Processed host roomId (message :: rest) state state''

/-- The batch has been processed by a device that has joined, or has let it join. -/
inductive Batched (host : Host σ ρ) (roomId : Uuid) (messages : List ControlMessage)
    (state state' : σ) : Bool → Prop where
  | member (h : Processed host roomId messages state state') :
      Batched host roomId messages state state' true
  | welcome {index : ℕ} {welcome commit : ControlMessage} {entered : σ}
      (hindex : welcomeIndex messages = some index) (hwelcome : messages[index]? = some welcome)
      (hcommit : matchingCommit messages index welcome.epoch = some commit)
      (hjoin : host.Gives (.core (.joinGroup state welcome.envelope))
        (.ok (entered, welcome.epoch)))
      (hrest : Processed host roomId (messages.drop (index + 1)) entered state') :
      Batched host roomId messages state state' false

/-- One leaf removed from a draft, or added to it. -/
inductive DraftStep (host : Host σ ρ) (roomId membershipRevision : ℕ) :
    GroupDraft σ → GroupDraft σ → Prop where
  | removal {draft : GroupDraft σ} {identity : Leaf} {removed : RemovedMember σ} {id : Uuid}
      (hgives : host.Gives (.core (.removeMember draft.1 roomId identity)) (.ok removed))
      (hid : host.Gives .newId (.ok id)) :
      DraftStep host roomId membershipRevision draft (removed.state, draft.2 ++
        [{ id := id, epoch := removed.epoch, membershipRevision := membershipRevision,
           contentType := .commit, envelope := removed.commit, recipientDeviceId := none,
           sequenceNo := none }])
  | addition {draft : GroupDraft σ} {keyPackage : Bytes} {added : AddedMember σ}
      {commitId welcomeId deviceId : Uuid}
      (hgives : host.Gives (.core (.addMember draft.1 roomId keyPackage)) (.ok added))
      (hid : host.Gives .newId (.ok commitId)) :
      DraftStep host roomId membershipRevision draft (added.state, draft.2 ++
        [{ id := commitId, epoch := added.epoch, membershipRevision := membershipRevision,
           contentType := .commit, envelope := added.commit, recipientDeviceId := none,
           sequenceNo := none },
         { id := welcomeId, epoch := added.epoch, membershipRevision := membershipRevision,
           contentType := .welcome, envelope := added.welcome,
           recipientDeviceId := some deviceId, sequenceNo := none }])

/-- A draft goes on from another. -/
abbrev Drafted (host : Host σ ρ) (roomId membershipRevision : ℕ) :
    GroupDraft σ → GroupDraft σ → Prop :=
  Relation.ReflTransGen (DraftStep host roomId membershipRevision)

/-- The server has accepted the controls. -/
def Accepted (host : Host σ ρ) (operation : PendingOperation σ)
    (controls : List PendingControl) : Prop :=
  ∀ control ∈ controls, host.Gives (.api (.submitControlMessage operation.roomId
    (control.submission operation.senderDeviceId))) (.ok ())

/-! ## The writes -/

/-- What the coordinator may do to a device. -/
inductive Permitted (host : Host σ ρ) (s : DeviceStore σ) : StorageEffect σ → Prop where
  | inert {e : StorageEffect σ} (h : e.Inert) : Permitted host s e
  | lifecycle {e : StorageEffect σ} (h : LifecycleWrite host s e) : Permitted host s e
  /-- A bootstrap or a rekey is completed, -/
  | finishGroup {operation : PendingOperation σ}
      (h : s.pending = some operation)
      (hkind : operation.kind = .bootstrap ∨ operation.kind = .rekey)
      (haccepted : Accepted host operation operation.controls) :
      Permitted host s (.write operation.nextState)
  | finishCommit {operation : PendingOperation σ} {p : DeviceProfile}
      {last : Uuid} (h : s.pending = some operation)
      (hkind : operation.kind = .bootstrap ∨ operation.kind = .rekey)
      (haccepted : Accepted host operation operation.controls) (hp : s.profile = some p)
      (hlast : lastCommitId operation.controls = some last) :
      Permitted host s (.writeDeviceProfile (p.withCommit operation.roomId last))
  /-- or a rekey is taken back. -/
  | restore {operation : PendingOperation σ} {previous : σ}
      (h : s.pending = some operation) (hkind : operation.kind = .rekey)
      (hprevious : operation.previousState = some previous) : Permitted host s (.write previous)
  /-- The controls of others are completed. -/
  | finishInbound {operation : PendingOperation σ}
      (h : s.pending = some operation) (hkind : operation.kind = .inbound) :
      Permitted host s (.write operation.nextState)
  | finishCursor {operation : PendingOperation σ} {p : DeviceProfile}
      {sequenceNo : ℕ} (h : s.pending = some operation) (hkind : operation.kind = .inbound)
      (hp : s.profile = some p)
      (hlast : (operation.controls.getLast?.bind (·.sequenceNo)) = some sequenceNo) :
      Permitted host s (.writeDeviceProfile (inboundProfile operation p sequenceNo))
  /-- A message has been sent. -/
  | finishApplication {operation : PendingOperation σ}
      (h : s.pending = some operation) (hkind : operation.kind = .application) :
      Permitted host s (.write operation.nextState)
  | empty {operation : PendingOperation σ} (h : s.pending = some operation) :
      Permitted host s .deletePendingOperation
  /-- A new operation becomes pending where there is none. -/
  | rekey {p : DeviceProfile} {state : σ} {draft : GroupDraft σ}
      {roomId membershipRevision key : ℕ} (h : s.pending = none) (hp : s.profile = some p)
      (hstate : s.state = some state) (hjoined : p.joined roomId = true)
      (hdraft : Drafted host roomId membershipRevision (state, []) draft) (hne : draft.2 ≠ []) :
      Permitted host s (.writePendingOperation
        { kind := .rekey, roomId := roomId, nextState := draft.1, senderDeviceId := p.deviceId,
          idempotencyKey := key, controls := draft.2, ciphertext := none, epoch := none,
          controlMessageId := none, previousState := some state })
  | bootstrap {p : DeviceProfile} {state created : σ} {draft : GroupDraft σ}
      {roomId membershipRevision key : ℕ} (h : s.pending = none) (hp : s.profile = some p)
      (hstate : s.state = some state)
      (hcreated : host.Gives (.core (.createGroup state roomId)) (.ok created))
      (hdraft : Drafted host roomId membershipRevision (created, []) draft) :
      Permitted host s (.writePendingOperation
        { kind := .bootstrap, roomId := roomId, nextState := draft.1,
          senderDeviceId := p.deviceId, idempotencyKey := key, controls := draft.2,
          ciphertext := none, epoch := none, controlMessageId := none, previousState := none })
  | inbound {p : DeviceProfile} {state state' : σ} {roomId : Uuid}
      {messages : List ControlMessage} {last : ControlMessage} (h : s.pending = none)
      (hp : s.profile = some p) (hstate : s.state = some state)
      (hlist : host.Gives (.api (.listControlMessages roomId p.deviceId (p.cursor roomId)
        controlPageLimit)) (.ok messages))
      (hlast : messages.getLast? = some last)
      (hbatch : Batched host roomId messages state state' (p.joined roomId)) :
      Permitted host s (.writePendingOperation (inboundOperation roomId p state' messages last))
  | application {p : DeviceProfile} {state : σ} {roomId key commitId : Uuid}
      {payload : ApplicationPayload} {encrypted : Encrypted σ} (h : s.pending = none)
      (hp : s.profile = some p) (hstate : s.state = some state)
      (hcommit : p.lastCommitMessageIds roomId = some commitId)
      (hgives : host.Gives (.core (.encrypt state roomId payload)) (.ok encrypted)) :
      Permitted host s (.writePendingOperation
        { kind := .application, roomId := roomId, nextState := encrypted.state,
          senderDeviceId := p.deviceId, idempotencyKey := key, controls := [],
          ciphertext := some encrypted.ciphertext, epoch := some encrypted.epoch,
          controlMessageId := some commitId, previousState := none })
  /-- A message of another device has been read. -/
  | decrypted {state : σ} {roomId : Uuid} {ciphertext : Bytes}
      {decrypted : Decrypted σ} (h : s.pending = none) (hstate : s.state = some state)
      (hgives : host.Gives (.core (.decrypt state roomId ciphertext)) (.ok decrypted)) :
      Permitted host s (.write decrypted.state)

/-- The storage is used as permitted, everything else freely. -/
def permits (host : Host σ ρ) (w : World σ ρ) : Effect σ → Prop
  | .storage e => Permitted host w.device e
  | .remote _ => True

instance (host : Host σ ρ) : Setup host (permits host) where
  inert h := .inert h
  remote := trivial
  lifecycle h := .lifecycle h

/-- A program of the coordinator, run from a world, writes as permitted and ends in `Q`. -/
abbrev Keeps {α : Type} (host : Host σ ρ)
    (Q : Outcome (clientEffects σ) α → World σ ρ → Prop) (p : Act σ α) (w : World σ ρ) : Prop :=
  Action.Always host.env (permits host) Q p w

section

variable {host : Host σ ρ} {α : Type} {Q : Outcome (clientEffects σ) α → World σ ρ → Prop}
  {w : World σ ρ}

theorem keeps_requiredProfile_bind {f : DeviceProfile → Act σ α}
    (hnone : Q (.fail (.directMessage "E2EE 设备档案缺失")) w)
    (hsome : ∀ p, w.device.profile = some p → Keeps host Q (f p) w) :
    Keeps host Q (requiredProfile >>= f) w := by
  rw [requiredProfile, Action.bind_assoc]
  refine keeps_inert_bind trivial rfl ?_
  cases hp : w.device.profile with
  | none =>
    simp only [DeviceStore.perform, hp]
    exact hnone
  | some p =>
    simp only [DeviceStore.perform, hp]
    exact hsome p hp

theorem keeps_storedContext_bind {f : DeviceProfile × σ → Act σ α}
    (hfail : ∀ err, Q (.fail err) w)
    (hsome : ∀ p state, w.device.profile = some p → w.device.state = some state →
      Keeps host Q (f (p, state)) w) :
    Keeps host Q (storedContext >>= f) w := by
  rw [storedContext, Action.bind_assoc]
  refine keeps_requiredProfile_bind (hfail _) fun p hp => ?_
  rw [Action.bind_assoc]
  refine keeps_inert_bind trivial rfl ?_
  cases hstate : w.device.state with
  | none =>
    simp only [DeviceStore.perform, hstate]
    exact hfail _
  | some state =>
    simp only [DeviceStore.perform, hstate]
    exact hsome p state hp hstate

theorem keeps_safeEpoch_bind {epoch : ℕ} {f : ℕ → Act σ α} (hfail : ∀ err, Q (.fail err) w)
    (h : Keeps host Q (f epoch) w) : Keeps host Q (safeEpoch epoch >>= f) w := by
  rw [safeEpoch]
  split
  · exact h
  · exact hfail _

theorem keeps_required_bind {β : Type} {o : Option β} {f : β → Act σ α}
    (hfail : ∀ err, Q (.fail err) w) (h : ∀ b, o = some b → Keeps host Q (f b) w) :
    Keeps host Q (required o >>= f) w := by
  cases o with
  | none => exact hfail _
  | some b => exact h b rfl

end

/-! ## Programs that leave the device alone -/

section

variable {host : Host σ ρ} {w : World σ ρ}

theorem submitControls_spec (operation : PendingOperation σ) :
    ∀ (controls : List PendingControl) (w : World σ ρ), Keeps host (fun o w' => Same w w' ∧
      (o = .done () → Accepted host operation controls)) (submitControls operation controls) w
  | [], w => ⟨rfl, fun _ => List.forall_mem_nil _⟩
  | control :: rest, w => by
    refine keeps_remote_bind (fun err h => ⟨rfl, nofun⟩) fun _ h hok => ?_
    refine (submitControls_spec operation rest _).imp fun o w' ho => ⟨ho.1, fun hdone => ?_⟩
    exact List.forall_mem_cons.2 ⟨hok, ho.2 hdone⟩

theorem consumeControls_spec (operation : PendingOperation σ) :
    ∀ (controls : List PendingControl) (w : World σ ρ),
      Keeps host (fun _ w' => Same w w') (consumeControls operation controls) w
  | [], w => rfl
  | control :: rest, w => by
    refine keeps_remote_bind (fun err h => rfl) fun _ h _ => ?_
    exact consumeControls_spec operation rest { w with host := h }

theorem processCommits_spec (roomId : Uuid) :
    ∀ (messages : List ControlMessage) (state : σ) (w : World σ ρ), Keeps host (fun o w' =>
      Same w w' ∧ ∀ state', o = .done state' → Processed host roomId messages state state')
      (processCommits roomId messages state) w
  | [], state, w => ⟨rfl, fun state' h => by cases h; exact .nil state⟩
  | message :: rest, state, w => by
    rw [processCommits]
    split
    case isFalse => exact ⟨rfl, nofun⟩
    case isTrue hcommit =>
      refine keeps_remote_bind (fun err h => ⟨rfl, nofun⟩) fun result h hok => ?_
      refine keeps_safeEpoch_bind (fun err => ⟨rfl, nofun⟩) ?_
      split
      case isFalse => exact ⟨rfl, nofun⟩
      case isTrue hepoch =>
        refine (processCommits_spec roomId rest result.1 _).imp fun o w' ho =>
          ⟨ho.1, fun state' hdone => .cons hcommit ?_ (ho.2 state' hdone)⟩
        rw [← hepoch]
        exact hok

variable {messages : List ControlMessage}

theorem joinWithBatch_spec {roomId : Uuid} {state : σ} {index : ℕ} {welcome : ControlMessage}
    (hindex : welcomeIndex messages = some index) (hwelcome : messages[index]? = some welcome) :
    Keeps host (fun o w' => Same w w' ∧ ∀ state', o = .done state' →
      Batched host roomId messages state state' false)
      (joinWithBatch roomId messages state index welcome) w := by
  rw [joinWithBatch]
  cases hcommit : matchingCommit messages index welcome.epoch with
  | none => exact ⟨rfl, nofun⟩
  | some commit =>
    refine keeps_remote_bind (fun err h => ⟨rfl, nofun⟩) fun result h hok => ?_
    refine keeps_safeEpoch_bind (fun err => ⟨rfl, nofun⟩) ?_
    split
    case isFalse => exact ⟨rfl, nofun⟩
    case isTrue hepoch =>
      refine (processCommits_spec roomId _ result.1 _).imp fun o w' ho =>
        ⟨ho.1, fun state' hdone => .welcome hindex hwelcome hcommit ?_ (ho.2 state' hdone)⟩
      rw [← hepoch]
      exact hok

theorem applyControlBatch_spec {p : DeviceProfile} {state : σ} {roomId : Uuid} :
    Keeps host (fun o w' => Same w w' ∧ ∀ state', o = .done (some state') →
      Batched host roomId messages state state' (p.joined roomId))
      (applyControlBatch p state roomId messages) w := by
  rw [applyControlBatch]
  split
  case isTrue hjoined =>
    rw [hjoined]
    refine keeps_map ((processCommits_spec roomId messages state w).imp fun o w' ho => ?_)
    cases o with
    | done state' => exact ⟨ho.1, fun _ h => by cases h; exact .member (ho.2 _ rfl)⟩
    | fail | spent => exact ⟨ho.1, nofun⟩
  case isFalse hjoined =>
    rw [Bool.eq_false_iff.2 hjoined]
    cases hindex : welcomeIndex messages with
    | none => exact ⟨rfl, nofun⟩
    | some index =>
      refine keeps_required_bind (fun err => ⟨rfl, nofun⟩) fun welcome hwelcome => ?_
      refine keeps_map ((joinWithBatch_spec hindex hwelcome).imp fun o w' ho => ?_)
      cases o with
      | done state' => exact ⟨ho.1, fun _ h => by cases h; exact ho.2 _ rfl⟩
      | fail | spent => exact ⟨ho.1, nofun⟩

variable {roomId membershipRevision : ℕ}

theorem draftRemoval_spec {draft : GroupDraft σ} {identity : Leaf} :
    Keeps host (fun o w' => Same w w' ∧ ∀ draft', o = .done draft' →
      Drafted host roomId membershipRevision draft draft')
      (draftRemoval roomId membershipRevision draft identity) w := by
  refine Action.always_bind.2 (Action.always_attempt.2 (always_remote.2
    ⟨trivial, fun r h hr => ?_⟩))
  cases r with
  | error err =>
    cases err with
    | memberNotFound => exact ⟨rfl, fun draft' hdone => by cases hdone; exact .refl⟩
    | _ => exact ⟨rfl, nofun⟩
  | ok removed =>
    refine keeps_remote_bind (fun err h => ⟨rfl, nofun⟩) fun id h' hid => ?_
    refine keeps_safeEpoch_bind (fun err => ⟨rfl, nofun⟩) ?_
    exact ⟨rfl, fun draft' hdone => by cases hdone; exact .single (.removal ⟨_, _, hr⟩ hid)⟩

theorem draftAddition_spec {sender : ℕ} {draft : GroupDraft σ} {deviceId : Uuid} :
    Keeps host (fun o w' => Same w w' ∧ ∀ draft', o = .done draft' →
      Drafted host roomId membershipRevision draft draft')
      (draftAddition roomId sender membershipRevision draft deviceId) w := by
  refine keeps_remote_bind (fun err h => ⟨rfl, nofun⟩) fun keyPackage h _ => ?_
  refine keeps_remote_bind (fun err h => ⟨rfl, nofun⟩) fun added h hok => ?_
  refine keeps_safeEpoch_bind (fun err => ⟨rfl, nofun⟩) ?_
  refine keeps_remote_bind (fun err h => ⟨rfl, nofun⟩) fun commitId h hid => ?_
  refine keeps_remote_bind (fun err h => ⟨rfl, nofun⟩) fun welcomeId h _ => ?_
  exact ⟨rfl, fun draft' hdone => by cases hdone; exact .single (.addition hok hid)⟩

/-- A loop of changes makes a draft. -/
theorem keeps_drafts {γ : Type} {f : GroupDraft σ → γ → Act σ (GroupDraft σ)}
    (hf : ∀ draft x (w : World σ ρ), Keeps host (fun o w' =>
      Same w w' ∧ ∀ draft', o = .done draft' →
      Drafted host roomId membershipRevision draft draft') (f draft x) w) (xs : List γ)
    (draft : GroupDraft σ) :
    Keeps host (fun o w' => Same w w' ∧ ∀ draft', o = .done draft' →
      Drafted host roomId membershipRevision draft draft') (xs.foldlM f draft) w := by
  have hloop := Action.Always.foldlM (G := permits host) (f := f)
    (P := fun _ draft' w' => Same w w' ∧ Drafted host roomId membershipRevision draft draft')
    (E := fun _ w' => Same w w') (R := fun w' => Same w w')
    (fun x xs draft' w' h => (hf draft' x w').imp fun o w'' ho => by
      have hsame : Same w w'' := ho.1.trans h.1
      cases o with
      | done draft'' => exact ⟨hsame, h.2.trans (ho.2 _ rfl)⟩
      | fail err => exact hsame
      | spent => exact hsame) xs draft w ⟨rfl, .refl⟩
  refine hloop.imp fun o w' ho => ?_
  cases o with
  | done draft' => exact ⟨ho.1, fun _ h => by cases h; exact ho.2⟩
  | fail | spent => exact ⟨ho, nofun⟩

end

/-! ## Pending operations -/

section

variable {host : Host σ ρ} {w : World σ ρ}

/-- What ends well leaves nothing pending. -/
abbrev Emptied {α : Type} (o : Outcome (clientEffects σ) α) (w' : World σ ρ) : Prop :=
  ∀ a, o = .done a → w'.device.pending = none

omit host in
theorem emptied_fail {α : Type} (err : ClientError) :
    Emptied (.fail err : Outcome (clientEffects σ) α) w :=
  nofun

omit host in
theorem emptied_spent {α : Type} : Emptied (.spent : Outcome (clientEffects σ) α) w :=
  nofun

variable {operation : PendingOperation σ}

theorem resumeBootstrap_spec (h : w.device.pending = some operation)
    (hkind : operation.kind = .bootstrap) :
    Keeps host Emptied (resumeBootstrap operation) w := by
  refine (submitControls_spec operation _ w).bind (fun _ w₁ h₁ => ?_)
    (fun _ _ _ => nofun) (fun _ _ => nofun)
  obtain ⟨hsame, haccepted⟩ := h₁
  have hpending : w₁.device.pending = some operation := (congrArg _ hsame).trans h
  refine keeps_requiredProfile_bind nofun fun p hp => ?_
  refine keeps_required_bind (fun _ => nofun) fun last hlast => ?_
  refine always_store_bind.2 ⟨.finishGroup hpending (Or.inl hkind) (haccepted rfl), ?_⟩
  refine always_store_bind.2 ⟨.finishCommit hpending (Or.inl hkind) (haccepted rfl) hp hlast, ?_⟩
  exact always_store.2 ⟨.empty hpending, fun _ _ => rfl⟩

theorem finishRekey_spec {p : DeviceProfile} (h : w.device.pending = some operation)
    (hkind : operation.kind = .rekey) (haccepted : Accepted host operation operation.controls)
    (hp : w.device.profile = some p) :
    Keeps host Emptied (finishRekey operation p) w := by
  refine always_store_bind.2 ⟨.finishGroup h (Or.inr hkind) haccepted, ?_⟩
  refine keeps_required_bind (fun _ => nofun) fun last hlast => ?_
  refine always_store_bind.2 ⟨.finishCommit h (Or.inr hkind) haccepted hp hlast, ?_⟩
  exact always_store.2 ⟨.empty h, fun _ _ => rfl⟩

variable {sync : String → Uuid → Act σ Unit}

/-- What the calls of `syncControls` are to keep. -/
abbrev Syncs (host : Host σ ρ) (sync : String → Uuid → Act σ Unit) : Prop :=
  ∀ deviceLabel roomId (w : World σ ρ), Keeps host Emptied (sync deviceLabel roomId) w

theorem restoreRekey_spec (hsync : Syncs host sync) {p : DeviceProfile} {targetEpoch : ℕ}
    {err : ClientError} (h : w.device.pending = some operation) (hkind : operation.kind = .rekey) :
    Keeps host Emptied (restoreRekey sync operation p targetEpoch err) w := by
  refine keeps_remote_bind (fun _ _ => nofun) fun latest _ _ => ?_
  split
  case isFalse => exact nofun
  case isTrue =>
    refine keeps_required_bind (fun _ => nofun) fun previous hprevious => ?_
    refine always_store_bind.2 ⟨.restore h hkind hprevious, ?_⟩
    exact always_store_bind.2 ⟨.empty h, hsync _ _ _⟩

theorem resumeRekey_spec (hsync : Syncs host sync) (h : w.device.pending = some operation)
    (hkind : operation.kind = .rekey) :
    Keeps host Emptied (resumeRekey sync operation) w := by
  refine keeps_requiredProfile_bind nofun fun p hp => ?_
  refine keeps_required_bind (fun _ => nofun) fun lastControl _ => ?_
  refine Action.always_bind.2 (Action.always_attempt.2
    ((submitControls_spec operation _ w).imp fun o w₁ h₁ => ?_))
  have hpending : w₁.device.pending = some operation := (congrArg _ h₁.1).trans h
  cases o with
  | done _ => exact finishRekey_spec hpending hkind (h₁.2 rfl) ((congrArg _ h₁.1).trans hp)
  | fail err => exact restoreRekey_spec hsync hpending hkind
  | spent => exact nofun

theorem resumeInbound_spec (h : w.device.pending = some operation)
    (hkind : operation.kind = .inbound) :
    Keeps host Emptied (resumeInbound operation) w := by
  refine keeps_requiredProfile_bind nofun fun p hp => ?_
  refine always_store_bind.2 ⟨.finishInbound h hkind, ?_⟩
  refine keeps_required_bind (fun _ => nofun) fun sequenceNo hlast => ?_
  refine always_store_bind.2 ⟨.finishCursor h hkind hp hlast, ?_⟩
  refine (consumeControls_spec operation _ _).bind (fun _ w₁ h₁ => ?_)
    (fun _ _ _ => nofun) (fun _ _ => nofun)
  have hpending : w₁.device.pending = some operation := (congrArg _ h₁).trans h
  exact always_store.2 ⟨.empty hpending, fun _ _ => rfl⟩

theorem resumeApplication_spec (h : w.device.pending = some operation)
    (hkind : operation.kind = .application) :
    Keeps host Emptied (resumeApplication operation) w := by
  refine keeps_required_bind (fun _ => nofun) fun epoch _ => ?_
  refine keeps_required_bind (fun _ => nofun) fun ciphertext _ => ?_
  refine keeps_remote_bind (fun _ _ => nofun) fun response _ _ => ?_
  refine always_store_bind.2 ⟨.finishApplication h hkind, ?_⟩
  exact always_store_bind.2 ⟨.empty h, fun _ _ => rfl⟩

theorem resumePending_spec (hsync : Syncs host sync) (allowApplication : Bool) :
    Keeps host Emptied (resumePending sync allowApplication) w := by
  refine keeps_inert_bind trivial rfl ?_
  cases h : w.device.pending with
  | none =>
    simp only [DeviceStore.perform, h]
    exact fun _ _ => h
  | some operation =>
    simp only [DeviceStore.perform, h]
    cases hkind : operation.kind with
    | bootstrap =>
      exact (resumeBootstrap_spec h hkind).bind (fun _ w' hw' _ _ => hw' _ rfl)
        (fun _ _ _ => emptied_fail _) (fun _ _ => emptied_spent)
    | rekey =>
      exact (resumeRekey_spec hsync h hkind).bind (fun _ w' hw' _ _ => hw' _ rfl)
        (fun _ _ _ => emptied_fail _) (fun _ _ => emptied_spent)
    | inbound =>
      exact (resumeInbound_spec h hkind).bind (fun _ w' hw' _ _ => hw' _ rfl)
        (fun _ _ _ => emptied_fail _) (fun _ _ => emptied_spent)
    | application =>
      dsimp only
      split
      case isFalse => exact emptied_fail _
      case isTrue =>
        exact (resumeApplication_spec h hkind).bind (fun _ w' hw' _ _ => hw' _ rfl)
          (fun _ _ _ => emptied_fail _) (fun _ _ => emptied_spent)

end

/-! ## Changes of a group -/

section

variable {host : Host σ ρ} {w : World σ ρ} {sync : String → Uuid → Act σ Unit}

theorem localGroupMembers_spec (state : σ) (roomId : Uuid) :
    Keeps host (fun _ w' => Same w w') (localGroupMembers state roomId) w := by
  refine Action.always_bind.2 (Action.always_attempt.2 (always_remote.2
    ⟨trivial, fun r h _ => ?_⟩))
  cases r <;> exact rfl

theorem rekeyGroup_spec (hsync : Syncs host sync) {roomId : Uuid} {epoch : RoomEpoch}
    {p : DeviceProfile} {state : σ} (hpending : w.device.pending = none)
    (hp : w.device.profile = some p) (hstate : w.device.state = some state)
    (hjoined : p.joined roomId = true) :
    Keeps host Emptied (rekeyGroup sync roomId epoch p state) w := by
  refine keeps_remote_bind (fun _ _ => nofun) fun memberDevices h _ => ?_
  refine (localGroupMembers_spec state roomId).bind (fun localMembers w₁ h₁ => ?_)
    (fun _ _ _ => nofun) (fun _ _ => nofun)
  have hsame₁ : w₁.device = w.device := h₁
  dsimp only
  split
  case isTrue => exact fun _ _ => (congrArg _ hsame₁).trans hpending
  case isFalse =>
    refine (keeps_drafts (fun _ _ _ => draftRemoval_spec) _ _).bind (fun removed w₂ h₂ => ?_)
      (fun _ _ _ => nofun) (fun _ _ => nofun)
    refine (keeps_drafts (fun _ _ _ => draftAddition_spec) _ _).bind (fun draft w₃ h₃ => ?_)
      (fun _ _ _ => nofun) (fun _ _ => nofun)
    have hsame₃ : w₃.device = w.device := h₃.1.trans (h₂.1.trans hsame₁)
    have hpending₃ : w₃.device.pending = none := (congrArg _ hsame₃).trans hpending
    split
    case isTrue => exact fun _ _ => hpending₃
    case isFalse hne =>
      refine keeps_remote_bind (fun _ _ => nofun) fun key h _ => ?_
      refine always_store_bind.2 ⟨.rekey hpending₃ ((congrArg _ hsame₃).trans hp)
        ((congrArg _ hsame₃).trans hstate) hjoined
        ((h₂.2 _ rfl).trans (h₃.2 _ rfl)) hne, ?_⟩
      exact (resumePending_spec hsync false).bind (fun _ w' hw' _ _ => hw' _ rfl)
        (fun _ _ _ => nofun) (fun _ _ => nofun)

theorem reconcileGroup_spec (hsync : Syncs host sync) (roomId : Uuid)
    (hpending : w.device.pending = none) :
    Keeps host Emptied (reconcileGroup sync roomId) w := by
  refine keeps_remote_bind (fun _ _ => nofun) fun epoch h _ => ?_
  split
  case isFalse => exact fun _ _ => hpending
  case isTrue =>
    refine keeps_storedContext_bind (fun _ => nofun) fun p state hp hstate => ?_
    split
    case isFalse => exact fun _ _ => hpending
    case isTrue hjoined => exact rekeyGroup_spec hsync hpending hp hstate hjoined

theorem bootstrapRoom_spec (hsync : Syncs host sync) {accountId roomId membershipRevision : ℕ}
    {p : DeviceProfile} {state : σ} (hpending : w.device.pending = none)
    (hp : w.device.profile = some p) (hstate : w.device.state = some state) :
    Keeps host Emptied (bootstrapRoom sync accountId roomId p state membershipRevision) w := by
  refine keeps_remote_bind (fun _ _ => nofun) fun memberDevices h _ => ?_
  dsimp only
  split
  case isTrue => exact nofun
  case isFalse =>
    split
    case isTrue => exact nofun
    case isFalse =>
      refine keeps_remote_bind (fun _ _ => nofun) fun created h hcreated => ?_
      refine (keeps_drafts (fun _ _ _ => draftAddition_spec) _ _).bind (fun draft w₁ h₁ => ?_)
        (fun _ _ _ => nofun) (fun _ _ => nofun)
      have hsame : w₁.device = w.device := h₁.1
      refine keeps_remote_bind (fun _ _ => nofun) fun key h _ => ?_
      refine always_store_bind.2 ⟨.bootstrap ((congrArg _ hsame).trans hpending)
        ((congrArg _ hsame).trans hp) ((congrArg _ hsame).trans hstate) hcreated
        (h₁.2 _ rfl), ?_⟩
      exact (resumePending_spec hsync false).bind (fun _ w' hw' _ _ => hw' _ rfl)
        (fun _ _ _ => nofun) (fun _ _ => nofun)

end

/-! ## Calls -/

section

variable {host : Host σ ρ} {w : World σ ρ} {sync : String → Uuid → Act σ Unit}

theorem syncPages_spec (hsync : Syncs host sync) (roomId : Uuid) :
    ∀ (fuel : ℕ) (w : World σ ρ), w.device.pending = none →
      Keeps host Emptied (syncPages sync roomId fuel) w
  | 0, w, _ => nofun
  | fuel + 1, w, hpending => by
    rw [syncPages]
    refine keeps_storedContext_bind (fun _ => nofun) fun p state hp hstate => ?_
    refine keeps_remote_bind (fun _ _ => nofun) fun messages h hlist => ?_
    cases hlast : messages.getLast? with
    | none => exact fun _ _ => hpending
    | some last =>
      refine applyControlBatch_spec.bind (fun next w₁ h₁ => ?_)
        (fun _ _ _ => nofun) (fun _ _ => nofun)
      have hsame : w₁.device = w.device := h₁.1
      cases next with
      | none => exact fun _ _ => (congrArg _ hsame).trans hpending
      | some nextState =>
        refine always_store_bind.2 ⟨.inbound ((congrArg _ hsame).trans hpending)
          ((congrArg _ hsame).trans hp) ((congrArg _ hsame).trans hstate) hlist hlast
          (h₁.2 _ rfl), ?_⟩
        refine (resumePending_spec hsync false).bind (fun _ w₂ h₂ => ?_)
          (fun _ _ _ => nofun) (fun _ _ => nofun)
        split
        case isTrue => exact fun _ _ => h₂ _ rfl
        case isFalse => exact syncPages_spec hsync roomId fuel w₂ (h₂ _ rfl)

/-- **Synchronisation** writes as permitted, whatever is pending when it starts. -/
theorem syncControls_permitted (accountId : Uuid) :
    ∀ fuel, Syncs host (syncControls accountId fuel : String → Uuid → Act σ Unit)
  | 0, _, _, _ => nofun
  | fuel + 1, deviceLabel, roomId, w => by
    have ih := syncControls_permitted accountId fuel
    rw [syncControls]
    refine (resumePending_spec ih false).bind (fun _ w₁ h₁ => ?_)
      (fun _ _ _ => nofun) (fun _ _ => nofun)
    refine (ensureReady_spec accountId deviceLabel).bind (fun _ w₂ h₂ => ?_)
      (fun _ _ _ => nofun) (fun _ _ => nofun)
    have hpending : w₂.device.pending = none := h₂.1.1.trans (h₁ _ rfl)
    refine (reconcileGroup_spec ih roomId hpending).bind (fun _ w₃ h₃ => ?_)
      (fun _ _ _ => nofun) (fun _ _ => nofun)
    exact syncPages_spec ih roomId fuel w₃ (h₃ _ rfl)

/-- Nothing is pending, and the device is as a context says. -/
structure Unchanged (context : DeviceProfile × σ) (s : DeviceStore σ) : Prop where
  pending : s.pending = none
  profile : s.profile = some context.1
  state : s.state = some context.2

variable {context : DeviceProfile × σ}

theorem observeIdentity_spec {identity : RootIdentity} (h : Unchanged context w.device) :
    Keeps host (fun _ w' => Unchanged context w'.device) (observeIdentity identity) w := by
  have hrecords : ∀ records, Keeps host (fun _ w' => Unchanged context w'.device)
      (store (.writeRecords records)) w :=
    fun records => always_store.2 ⟨.inert trivial, h.pending, h.profile, h.state⟩
  rw [observeIdentity]
  split
  case isFalse => exact h
  case isTrue =>
    refine keeps_inert_bind trivial rfl ?_
    split
    · exact hrecords _
    · split
      · exact h
      · exact hrecords _

theorem requireTrusted_spec {userId : Uuid} (h : Unchanged context w.device) :
    Keeps host (fun _ w' => Unchanged context w'.device) (requireTrusted userId) w := by
  refine keeps_inert_bind trivial rfl ?_
  split
  · exact h
  · split <;> exact h

theorem requireTrustedMembers_spec : ∀ (users : List Uuid) (w : World σ ρ),
    Unchanged context w.device →
      Keeps host (fun _ w' => Unchanged context w'.device) (requireTrustedMembers users) w
  | [], _, h => h
  | userId :: rest, w, h => by
    rw [requireTrustedMembers]
    refine keeps_remote_bind (fun _ _ => h) fun identity h' _ => ?_
    have hobserve : ∀ w₁ : World σ ρ, Unchanged context w₁.device → Keeps host
        (fun _ w' => Unchanged context w'.device) (observeIdentity identity) w₁ :=
      fun _ => observeIdentity_spec
    have htrust : ∀ w₁ : World σ ρ, Unchanged context w₁.device → Keeps host
        (fun _ w' => Unchanged context w'.device) (requireTrusted userId) w₁ :=
      fun _ => requireTrusted_spec
    refine (hobserve { w with host := h' } h).bind (fun _ w₁ h₁ => ?_)
      (fun _ _ h => h) (fun _ h => h)
    refine (htrust w₁ h₁).bind (fun _ w₂ h₂ => ?_) (fun _ _ h => h) (fun _ h => h)
    exact requireTrustedMembers_spec rest w₂ h₂

theorem ensureGroup_spec (hsync : Syncs host sync) {input : PayloadInput} {epoch : RoomEpoch}
    (h : Unchanged context w.device) :
    Keeps host (fun o w' => ∀ a, o = .done a → Unchanged a.1 w'.device)
      (ensureGroup sync input context epoch) w := by
  rw [ensureGroup]
  split
  case isFalse => exact fun a hdone => by cases hdone; exact h
  case isTrue =>
    refine (bootstrapRoom_spec hsync h.pending h.profile h.state).bind (fun _ w₁ h₁ => ?_)
      (fun _ _ _ => nofun) (fun _ _ => nofun)
    refine keeps_storedContext_bind (fun _ => nofun) fun p state hp hstate => ?_
    refine keeps_remote_bind (fun _ _ => nofun) fun epoch h' _ => ?_
    exact fun a hdone => by cases hdone; exact ⟨h₁ _ rfl, hp, hstate⟩

theorem encryptPayload_spec {input : PayloadInput} {epoch : RoomEpoch}
    (h : Unchanged context w.device) :
    Keeps host (fun _ _ => True) (encryptPayload input context.1 context.2 epoch) w := by
  rw [encryptPayload]
  split
  case isFalse => trivial
  case isTrue =>
    cases hcommit : context.1.lastCommitMessageIds input.roomId with
    | none => trivial
    | some controlMessageId =>
      refine keeps_remote_bind (fun _ _ => trivial) fun encrypted _ hgives => ?_
      refine keeps_safeEpoch_bind (fun _ => trivial) ?_
      split
      case isFalse => trivial
      case isTrue =>
        refine keeps_remote_bind (fun _ _ => trivial) fun key _ _ => ?_
        exact always_store.2 ⟨.application h.pending h.profile h.state hcommit hgives, trivial⟩

theorem preparePayload_spec (fuel : ℕ) (input : PayloadInput) :
    Keeps host (fun _ _ => True) (preparePayload fuel input) w := by
  have hsync := (syncControls_permitted input.accountId fuel : Syncs host _)
  rw [preparePayload]
  split
  · trivial
  refine (hsync input.deviceLabel input.roomId w).bind (fun _ w₁ h₁ => ?_)
    (fun _ _ _ => trivial) (fun _ _ => trivial)
  refine keeps_storedContext_bind (fun _ => trivial) fun p state hp hstate => ?_
  have hfresh : Unchanged (p, state) w₁.device := ⟨h₁ _ rfl, hp, hstate⟩
  refine keeps_remote_bind (fun _ _ => trivial) fun memberDevices h' _ => ?_
  have htrust : ∀ users (w₂ : World σ ρ), Unchanged (p, state) w₂.device → Keeps host
      (fun _ w' => Unchanged (p, state) w'.device) (requireTrustedMembers users) w₂ :=
    requireTrustedMembers_spec
  have hgroup : ∀ epoch (w₂ : World σ ρ), Unchanged (p, state) w₂.device → Keeps host
      (fun o w' => ∀ a, o = .done a → Unchanged a.1 w'.device)
      (ensureGroup (syncControls input.accountId fuel) input (p, state) epoch) w₂ :=
    fun _ _ => ensureGroup_spec hsync
  refine (htrust _ { w₁ with host := h' } hfresh).bind
    (fun _ w₂ h₂ => ?_) (fun _ _ _ => trivial) (fun _ _ => trivial)
  refine keeps_remote_bind (fun _ _ => trivial) fun epoch h' _ => ?_
  refine (hgroup epoch { w₂ with host := h' } h₂).bind (fun ready w₃ h₃ => ?_)
    (fun _ _ _ => trivial)
    (fun _ _ => trivial)
  exact encryptPayload_spec (h₃ ready rfl)

theorem doDecrypt_spec (fuel : ℕ) (accountId : Uuid) (deviceLabel : String) (roomId : Uuid)
    (ciphertext : Bytes) :
    Keeps host (fun _ _ => True) (doDecrypt fuel accountId deviceLabel roomId ciphertext) w := by
  rw [doDecrypt]
  split
  case isTrue => trivial
  case isFalse =>
    refine (syncControls_permitted accountId fuel deviceLabel roomId w).bind (fun _ w₁ h₁ => ?_)
      (fun _ _ _ => trivial) (fun _ _ => trivial)
    refine keeps_storedContext_bind (fun _ => trivial) fun p state hp hstate => ?_
    refine keeps_remote_bind (fun _ _ => trivial) fun decrypted _ hgives => ?_
    split
    · trivial
    · refine always_store_bind.2 ⟨.decrypted (h₁ _ rfl) hstate hgives, ?_⟩
      exact keeps_safeEpoch_bind (fun _ => trivial) trivial

/-- **Every call of the coordinator** writes as permitted. -/
theorem CoordinatorCall.permitted (accountId : Uuid) (fuel : ℕ) (call : CoordinatorCall) :
    Keeps host (fun _ _ => True) (call.action accountId fuel : Act σ Unit) w := by
  have hsync := (syncControls_permitted accountId fuel : Syncs host _)
  cases call with
  | send input =>
    refine (preparePayload_spec fuel _).bind (fun _ w₁ _ => ?_) (fun _ _ _ => trivial)
      (fun _ _ => trivial)
    exact (resumePending_spec hsync true).bind (fun _ _ _ => trivial) (fun _ _ _ => trivial)
      (fun _ _ => trivial)
  | prepare input => exact preparePayload_spec fuel _
  | sync deviceLabel roomId => exact (hsync deviceLabel roomId w).imp fun _ _ _ => trivial
  | retry =>
    refine (resumePending_spec hsync true).bind (fun response w₁ _ => ?_) (fun _ _ _ => trivial)
      (fun _ _ => trivial)
    cases response <;> trivial
  | decrypt deviceLabel roomId ciphertext =>
    exact (doDecrypt_spec fuel accountId deviceLabel roomId ciphertext).bind
      (fun _ _ _ => trivial) (fun _ _ _ => trivial) (fun _ _ => trivial)

/-! ## Every run -/

/-- What can be left of a world by calls of the coordinator, each of them run to its end or
to any other point. -/
inductive Visits (host : Host σ ρ) (accountId : Uuid) (w : World σ ρ) : World σ ρ → Prop where
  | refl : Visits host accountId w w
  | call {w' w'' : World σ ρ} {call : CoordinatorCall} {fuel : ℕ}
      {events : List (Event (clientEffects σ))} {rest : Act σ Unit}
      (h : Visits host accountId w w')
      (hrun : Action.Run host.env (call.action accountId fuel) w' events rest w'') :
      Visits host accountId w w''

/-- What the permitted writes keep, all calls keep. -/
theorem Visits.holds {I : DeviceStore σ → Prop} {accountId : Uuid} {w w' : World σ ρ}
    (h : Visits host accountId w w')
    (hkeep : ∀ s e, I s → Permitted host s e → I (s.perform e).2) (hI : I w.device) :
    I w'.device := by
  induction h with
  | refl => exact hI
  | call _ hrun ih =>
    refine (CoordinatorCall.permitted accountId _ _).holds (I := fun w => I w.device)
      (fun w e r w' hw hG he => ?_) ih hrun
    cases e with
    | storage e =>
      obtain ⟨-, rfl⟩ := he
      exact hkeep _ _ hw hG
    | remote e =>
      obtain ⟨h, -, rfl⟩ := he
      exact hw

end

end RedcodeIm
