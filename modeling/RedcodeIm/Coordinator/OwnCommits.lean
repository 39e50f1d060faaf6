import RedcodeIm.Coordinator.MlsCore
import RedcodeIm.Coordinator.Native

/-!
# The Commits a native client submits

A Commit is never delivered to the device that submitted it, so a client has to keep what it
needs to apply its own.  The native clients submit the Commits of a change before they store
anything of it.

* `Journal` — the controls that the servers have accepted from a device.
* `Reflected` — the accepted Commits of a run are in the stored state, or stored to be completed.
* `Settled` — none has been accepted yet, or the state of the change has been stored.
* `own_commits_reflected` — wherever a change of a group stops, the one holds exactly when the
  other does.
-/

namespace RedcodeIm

open Awaiting Native

variable {σ ρ : Type}

/-- A control of a device, with its room. -/
abbrev Submitted : Type := Uuid × SubmitControlMessageInput

/-- What the servers have accepted from the device.  Each submission may be accepted, whatever
the device gets for an answer. -/
structure Journal (host : Host σ ρ) (accepted : ρ → List Submitted) : Prop where
  submit : ∀ {h room input r h'}, host h (.api (.submitControlMessage room input)) r h' →
    accepted h' = accepted h ∨ accepted h' = accepted h ++ [(room, input)]
  other : ∀ {h e r h'}, host h e r h' →
    (∀ room input, e ≠ .api (.submitControlMessage room input)) → accepted h' = accepted h

/-- Every Commit of a list is in the stored state of its room, or among the controls that are
stored to be completed. -/
def Reflected (epochOf : σ → Uuid → ℕ) (controls : List Submitted) (s : DeviceStore σ) : Prop :=
  ∀ x ∈ controls, x.2.contentType = .commit →
    (∃ state, s.state = some state ∧ x.2.epoch ≤ epochOf state x.1) ∨
    ∃ op, s.pending = some op ∧ ∃ c ∈ op.controls, c.id = x.2.id

/-- No Commit of a list has been accepted, or another state has been stored since. -/
def Settled (controls : List Submitted) (before after : DeviceStore σ) : Prop :=
  (∀ x ∈ controls, x.2.contentType ≠ .commit) ∨ after.state ≠ before.state

namespace OwnCommits

/-- What holds wherever a change of a group stops, after it has begun in the world `w`. -/
def Exact (epochOf : σ → Uuid → ℕ) (accepted : ρ → List Submitted) (w w' : World σ ρ) : Prop :=
  ∀ controls, accepted w'.host = accepted w.host ++ controls →
    (Reflected epochOf controls w'.device ↔ Settled controls w.device w'.device)

/-- A program stops at no other points. -/
abbrev Stops {α : Type} (host : Host σ ρ) (epochOf : σ → Uuid → ℕ)
    (accepted : ρ → List Submitted) (w : World σ ρ)
    (Q : Outcome (clientEffects σ) α → World σ ρ → Prop) (p : Act σ α) (w' : World σ ρ) : Prop :=
  Action.Always host.env (fun w' _ => Exact epochOf accepted w w')
    (fun o w' => Exact epochOf accepted w w' ∧ Q o w') p w'

/-- The device is as it was at the beginning, when the group was at epoch `first`; the Commits
that have been accepted since are of later epochs, up to `last`. -/
structure Ahead (accepted : ρ → List Submitted) (roomId first : ℕ) (w : World σ ρ) (last : ℕ)
    (w' : World σ ρ) : Prop where
  device : w'.device = w.device
  controls : ∃ controls, accepted w'.host = accepted w.host ++ controls ∧
    ∀ x ∈ controls, x.2.contentType = .commit → x.1 = roomId ∧ first < x.2.epoch ∧ x.2.epoch ≤ last

section

variable {host : Host σ ρ} {epochOf : σ → Uuid → ℕ} {groupOf : Bytes → Uuid}
  {accepted : ρ → List Submitted} {w w' : World σ ρ} {roomId first last : ℕ} {start : σ}

theorem Ahead.mono {last' : ℕ} (h : Ahead accepted roomId first w last w') (hle : last ≤ last') :
    Ahead accepted roomId first w last' w' := by
  obtain ⟨hdevice, controls, hcontrols, hall⟩ := h
  exact ⟨hdevice, controls, hcontrols, fun x hx hc =>
    ⟨(hall x hx hc).1, (hall x hx hc).2.1, (hall x hx hc).2.2.trans hle⟩⟩

/-- Nothing has been stored of what has been accepted. -/
theorem Ahead.exact (hslot : w.device.pending = none) (hstart : ∀ state,
    w.device.state = some state → epochOf state roomId ≤ first)
    (h : Ahead accepted roomId first w last w') : Exact epochOf accepted w w' := by
  obtain ⟨hdevice, controls, hcontrols, hall⟩ := h
  intro controls' hcontrols'
  obtain rfl : controls = controls' := List.append_cancel_left (hcontrols.symm.trans hcontrols')
  rw [hdevice]
  constructor
  · intro hreflected
    refine Or.inl fun x hx hc => ?_
    obtain ⟨rfl, hfirst, -⟩ := hall x hx hc
    rcases hreflected x hx hc with ⟨state, hstate, hepoch⟩ | ⟨op, hop, -⟩
    · have := hstart state hstate
      omega
    · cases hslot.symm.trans hop
  · rintro (hnone | hchanged)
    · exact fun x hx hc => absurd hc (hnone x hx)
    · exact absurd rfl hchanged

/-- All of it has been stored. -/
theorem exact_of_written {state : σ} (hstart : ∀ state, w.device.state = some state →
    epochOf state roomId ≤ first) (h : Ahead accepted roomId first w (epochOf state roomId) w')
    {s : DeviceStore σ} (hs : s.state = some state) :
    Exact epochOf accepted w { w' with device := s } := by
  obtain ⟨-, controls, hcontrols, hall⟩ := h
  intro controls' hcontrols'
  obtain rfl : controls = controls' := List.append_cancel_left (hcontrols.symm.trans hcontrols')
  have hreflected : Reflected epochOf controls s := fun x hx hc => by
    obtain ⟨hroom, -, hlast⟩ := hall x hx hc
    exact Or.inl ⟨state, hs, by rw [hroom]; exact hlast⟩
  refine iff_of_true hreflected ?_
  by_cases hnone : ∀ x ∈ controls, x.2.contentType ≠ .commit
  · exact Or.inl hnone
  · push Not at hnone
    obtain ⟨x, hx, hc⟩ := hnone
    obtain ⟨-, hfirst, hlast⟩ := hall x hx hc
    refine Or.inr fun hsame => ?_
    have hbefore := hstart state (hsame.symm.trans hs)
    omega

/-- What is no submission leaves the journal alone. -/
theorem Ahead.other (hjournal : Journal host accepted) {e : RemoteEffect σ} {r : Answer e}
    {h : ρ} (ha : Ahead accepted roomId first w last w') (hr : host w'.host e r h)
    (he : ∀ room input, e ≠ .api (.submitControlMessage room input)) :
    Ahead accepted roomId first w last { w' with host := h } := by
  obtain ⟨hdevice, controls, hcontrols, hall⟩ := ha
  exact ⟨hdevice, controls, (hjournal.other hr he).trans hcontrols, hall⟩

/-- A submission of the next epoch. -/
theorem Ahead.submit (hjournal : Journal host accepted) {input : SubmitControlMessageInput}
    {r : Answer (.api (.submitControlMessage roomId input) : RemoteEffect σ)} {h : ρ} {last' : ℕ}
    (ha : Ahead accepted roomId first w last w')
    (hr : host w'.host (.api (.submitControlMessage roomId input)) r h) (hle : last ≤ last')
    (hinput : input.contentType = .commit → first < input.epoch ∧ input.epoch ≤ last') :
    Ahead accepted roomId first w last' { w' with host := h } := by
  obtain ⟨hdevice, controls, hcontrols, hall⟩ := ha.mono hle
  rcases hjournal.submit hr with hsame | hmore
  · exact ⟨hdevice, controls, hsame.trans hcontrols, hall⟩
  · refine ⟨hdevice, controls ++ [(roomId, input)], ?_, fun x hx hc => ?_⟩
    · exact hmore.trans (by rw [hcontrols, List.append_assoc])
    · rcases List.mem_append.1 hx with hx | hx
      · exact hall x hx hc
      · obtain rfl := List.mem_singleton.1 hx
        exact ⟨rfl, hinput hc⟩

variable {α : Type} {Q : Outcome (clientEffects σ) α → World σ ρ → Prop}

/-- The lemmas of this section are about a change of the group of a room, begun in the world
`w` with the group at epoch `first`. -/
structure Begun (host : Host σ ρ) (epochOf : σ → Uuid → ℕ) (accepted : ρ → List Submitted)
    (roomId first : ℕ) (w : World σ ρ) : Prop where
  journal : Journal host accepted
  slot : w.device.pending = none
  start : ∀ state, w.device.state = some state → epochOf state roomId ≤ first

theorem stops_remote_bind (hb : Begun host epochOf accepted roomId first w)
    {e : RemoteEffect σ} {f : e.Reply → Act σ α} (ha : Ahead accepted roomId first w last w')
    (he : ∀ room input, e ≠ .api (.submitControlMessage room input))
    (hfail : ∀ err w', Ahead accepted roomId first w last w' → Q (.fail err) w')
    (hok : ∀ a h, host.Gives e (.ok a) →
      Ahead accepted roomId first w last { w' with host := h } →
      Stops host epochOf accepted w Q (f a) { w' with host := h }) :
    Stops host epochOf accepted w Q (remote e >>= f) w' := by
  refine always_remote_bind.2 ⟨ha.exact hb.slot hb.start, fun r h hr => ?_⟩
  have ha' := ha.other hb.journal hr he
  cases r with
  | ok a => exact hok a h ⟨_, _, hr⟩ ha'
  | error err => exact ⟨ha'.exact hb.slot hb.start, hfail err _ ha'⟩

theorem stops_readState_bind (hb : Begun host epochOf accepted roomId first w)
    {f : σ → Act σ α} (ha : Ahead accepted roomId first w last w')
    (hfail : ∀ err, Q (.fail err) w')
    (h : ∀ state, w.device.state = some state → Stops host epochOf accepted w Q (f state) w') :
    Stops host epochOf accepted w Q (readState >>= f) w' := by
  rw [readState, Action.bind_assoc]
  refine always_store_bind.2 ⟨ha.exact hb.slot hb.start, ?_⟩
  cases hstate : w'.device.state with
  | none =>
    simp only [DeviceStore.perform, hstate]
    exact ⟨ha.exact hb.slot hb.start, hfail _⟩
  | some state =>
    simp only [DeviceStore.perform, hstate]
    exact h state ((congrArg _ ha.device).symm.trans hstate)

variable {p : DeviceProfile} {membershipRevision : ℕ}

theorem submit_stops (hb : Begun host epochOf accepted roomId first w) {id epoch last' : ℕ}
    {contentType : ControlContentType} {envelope : Bytes} {recipientDeviceId : Option Uuid}
    (ha : Ahead accepted roomId first w last w') (hle : last ≤ last')
    (hepoch : contentType = .commit → first < epoch ∧ epoch ≤ last') :
    Stops host epochOf accepted w (fun _ w' => Ahead accepted roomId first w last' w')
      (submit p roomId membershipRevision id epoch contentType envelope
        recipientDeviceId) w' := by
  refine (always_remote (G := fun w' _ => Exact epochOf accepted w w')).2
    ⟨ha.exact hb.slot hb.start, fun r h hr => ?_⟩
  have ha' := ha.submit hb.journal hr hle hepoch
  cases r <;> exact ⟨ha'.exact hb.slot hb.start, ha'⟩

/-- What a step of a change leads to: everything accepted is up to the epoch of its state. -/
abbrev Grows (epochOf : σ → Uuid → ℕ) (accepted : ρ → List Submitted) (roomId first : ℕ)
    (w : World σ ρ) (o : Outcome (clientEffects σ) (Native.Change σ)) (w' : World σ ρ) : Prop :=
  (∃ last, Ahead accepted roomId first w last w') ∧ ∀ change, o = .done change →
    first ≤ epochOf change.1 roomId ∧
    Ahead accepted roomId first w (epochOf change.1 roomId) w'

variable {change : Native.Change σ}

theorem removal_stops (hmls : MlsEpochs host epochOf groupOf)
    (hb : Begun host epochOf accepted roomId first w) {identity : Leaf}
    (hfirst : first ≤ epochOf change.1 roomId)
    (ha : Ahead accepted roomId first w (epochOf change.1 roomId) w') :
    Stops host epochOf accepted w (Grows epochOf accepted roomId first w)
      (removal p roomId membershipRevision change identity) w' := by
  refine stops_remote_bind hb ha nofun (fun _ _ h => ⟨⟨_, h⟩, nofun⟩) fun removed h hgives ha => ?_
  obtain ⟨hnext, hstate, -⟩ := hmls.removeMember hgives
  refine stops_remote_bind hb ha nofun (fun _ _ h => ⟨⟨_, h⟩, nofun⟩) fun commitId h _ ha => ?_
  have hcommit : Stops host epochOf accepted w
      (fun _ w' => Ahead accepted roomId first w removed.epoch w')
      (submit p roomId membershipRevision commitId removed.epoch .commit removed.commit
        none) { w' with host := h } :=
    submit_stops hb ha (by omega) fun _ => ⟨by omega, le_rfl⟩
  refine hcommit.bind (fun _ w₁ h₁ => ?_)
    (fun _ _ h => ⟨h.1, ⟨_, h.2⟩, nofun⟩) (fun _ h => ⟨h.1, ⟨_, h.2⟩, nofun⟩)
  refine ⟨h₁.1, ⟨_, h₁.2⟩, fun _ hdone => ?_⟩
  cases hdone
  rw [hstate]
  exact ⟨by omega, h₁.2⟩

theorem addition_stops (hmls : MlsEpochs host epochOf groupOf)
    (hb : Begun host epochOf accepted roomId first w) {deviceId : Uuid}
    (hfirst : first ≤ epochOf change.1 roomId)
    (ha : Ahead accepted roomId first w (epochOf change.1 roomId) w') :
    Stops host epochOf accepted w (Grows epochOf accepted roomId first w)
      (addition p roomId membershipRevision change deviceId) w' := by
  refine stops_remote_bind hb ha nofun (fun _ _ h => ⟨⟨_, h⟩, nofun⟩) fun keyPackage h _ ha => ?_
  refine stops_remote_bind hb ha nofun (fun _ _ h => ⟨⟨_, h⟩, nofun⟩) fun added h hgives ha => ?_
  obtain ⟨hnext, hstate, -⟩ := hmls.addMember hgives
  refine stops_remote_bind hb ha nofun (fun _ _ h => ⟨⟨_, h⟩, nofun⟩) fun commitId h _ ha => ?_
  have hcommit : Stops host epochOf accepted w
      (fun _ w' => Ahead accepted roomId first w added.epoch w')
      (submit p roomId membershipRevision commitId added.epoch .commit added.commit none)
      { w' with host := h } := submit_stops hb ha (by omega) fun _ => ⟨by omega, le_rfl⟩
  refine hcommit.bind (fun _ w₁ h₁ => ?_)
    (fun _ _ h => ⟨h.1, ⟨_, h.2⟩, nofun⟩) (fun _ h => ⟨h.1, ⟨_, h.2⟩, nofun⟩)
  refine stops_remote_bind hb h₁.2 nofun (fun _ _ h => ⟨⟨_, h⟩, nofun⟩) fun welcomeId h _ ha => ?_
  have hwelcome : Stops host epochOf accepted w
      (fun _ w' => Ahead accepted roomId first w added.epoch w')
      (submit p roomId membershipRevision welcomeId added.epoch .welcome added.welcome
        (some deviceId)) { w₁ with host := h } := submit_stops hb ha le_rfl nofun
  refine hwelcome.bind (fun _ w₂ h₂ => ?_)
    (fun _ _ h => ⟨h.1, ⟨_, h.2⟩, nofun⟩) (fun _ h => ⟨h.1, ⟨_, h.2⟩, nofun⟩)
  refine ⟨h₂.1, ⟨_, h₂.2⟩, fun _ hdone => ?_⟩
  cases hdone
  rw [hstate]
  exact ⟨by omega, h₂.2⟩

/-- A loop of such steps. -/
theorem changes_stops {γ : Type} {f : Native.Change σ → γ → Act σ (Native.Change σ)}
    (hf : ∀ change x (w' : World σ ρ), first ≤ epochOf change.1 roomId →
      Ahead accepted roomId first w (epochOf change.1 roomId) w' →
      Stops host epochOf accepted w (Grows epochOf accepted roomId first w) (f change x) w')
    (xs : List γ) (change : Native.Change σ) (w' : World σ ρ)
    (hfirst : first ≤ epochOf change.1 roomId)
    (ha : Ahead accepted roomId first w (epochOf change.1 roomId) w')
    (hexact : Exact epochOf accepted w w') :
    Stops host epochOf accepted w (Grows epochOf accepted roomId first w) (xs.foldlM f change)
      w' := by
  have hloop := Action.Always.foldlM (G := fun w' _ => Exact epochOf accepted w w') (f := f)
    (P := fun _ change' w' => (Exact epochOf accepted w w' ∧ first ≤ epochOf change'.1 roomId) ∧
      Ahead accepted roomId first w (epochOf change'.1 roomId) w')
    (E := fun _ w' => Exact epochOf accepted w w' ∧ ∃ last, Ahead accepted roomId first w last w')
    (R := fun w' => Exact epochOf accepted w w' ∧ ∃ last, Ahead accepted roomId first w last w')
    (fun x xs change' w' h => (hf change' x w' h.1.2 h.2).imp fun o w'' ho => by
      cases o with
      | done change'' => exact ⟨⟨ho.1, (ho.2.2 _ rfl).1⟩, (ho.2.2 _ rfl).2⟩
      | fail err => exact ⟨ho.1, ho.2.1⟩
      | spent => exact ⟨ho.1, ho.2.1⟩) xs change w' ⟨⟨hexact, hfirst⟩, ha⟩
  refine hloop.imp fun o w'' ho => ?_
  cases o with
  | done change' => exact ⟨ho.1.1, ⟨_, ho.2⟩, fun _ h => by cases h; exact ⟨ho.1.2, ho.2⟩⟩
  | _ => exact ⟨ho.1, ho.2, nofun⟩

theorem finish_stops (hb : Begun host epochOf accepted roomId first w)
    (ha : Ahead accepted roomId first w (epochOf change.1 roomId) w') :
    Stops host epochOf accepted w (fun _ _ => True) (finish p roomId change) w' := by
  rw [finish]
  split
  case h_1 => exact ⟨ha.exact hb.slot hb.start, trivial⟩
  case h_2 last hsome =>
    refine always_store_bind.2 ⟨ha.exact hb.slot hb.start, ?_⟩
    have hstored : ∀ s : DeviceStore σ, s.state = some change.1 →
        Exact epochOf accepted w { w' with device := s } :=
      fun s hs => exact_of_written hb.start ha hs
    exact (always_store (G := fun w' _ => Exact epochOf accepted w w')).2
      ⟨hstored _ rfl, hstored _ rfl, trivial⟩

theorem bootstrap_stops (hmls : MlsEpochs host epochOf groupOf) (hjournal : Journal host accepted)
    (hslot : w.device.pending = none) (hstart : w.device.state = some start)
    {accountId revision : ℕ} :
    Stops host epochOf accepted w (fun _ _ => True)
      (bootstrap accountId roomId p start revision) w := by
  have hb : Begun host epochOf accepted roomId (epochOf start roomId) w :=
    ⟨hjournal, hslot, fun state hstate => (Option.some.inj (hstate.symm.trans hstart) ▸ le_rfl)⟩
  have ha : Ahead accepted roomId (epochOf start roomId) w (epochOf start roomId) w :=
    ⟨rfl, [], (List.append_nil _).symm, fun _ hx => absurd hx List.not_mem_nil⟩
  refine stops_remote_bind hb ha nofun (fun _ _ _ => trivial) fun memberDevices h _ ha => ?_
  dsimp only
  split
  case isTrue => exact ⟨ha.exact hb.slot hb.start, trivial⟩
  case isFalse =>
    split
    case isTrue => exact ⟨ha.exact hb.slot hb.start, trivial⟩
    case isFalse =>
      refine stops_remote_bind hb ha nofun (fun _ _ _ => trivial) fun created h hcreated ha => ?_
      -- the group was not there, so it is at epoch zero before and after it is created
      obtain ⟨hzero, hcreatedZero, -⟩ := hmls.createGroup hcreated
      have hsame : epochOf created roomId = epochOf start roomId := hcreatedZero.trans hzero.symm
      have hchanges := changes_stops (f := addition p roomId revision)
        (fun change x w' => addition_stops hmls hb)
        ((memberDevices.filter fun member => member.userId ≠ accountId).flatMap (·.devices))
        ((created, none) : Native.Change σ) _ hsame.ge (hsame ▸ ha) (ha.exact hb.slot hb.start)
      refine hchanges.bind (fun change w₁ h₁ => ?_) (fun _ _ h => ⟨h.1, trivial⟩)
        (fun _ h => ⟨h.1, trivial⟩)
      exact (finish_stops hb (h₁.2.2 _ rfl).2).bind (fun _ _ h => h) (fun _ _ h => h) (fun _ h => h)

theorem reconcileGroup_stops (hmls : MlsEpochs host epochOf groupOf)
    (hjournal : Journal host accepted) (hslot : w.device.pending = none) {platform : Platform} :
    Stops host epochOf accepted w (fun _ _ => True)
      (Native.reconcileGroup platform roomId p) w := by
  have hnow : ∀ first, (∀ state, w.device.state = some state → epochOf state roomId ≤ first) →
      Begun host epochOf accepted roomId first w ∧ Ahead accepted roomId first w first w :=
    fun first hstart => ⟨⟨hjournal, hslot, hstart⟩, rfl, [], (List.append_nil _).symm,
      fun _ hx => absurd hx List.not_mem_nil⟩
  cases hstate : w.device.state with
  | none =>
    obtain ⟨hb, ha⟩ := hnow 0 fun state h => by cases hstate.symm.trans h
    refine stops_remote_bind hb ha nofun (fun _ _ _ => trivial) fun roomEpoch h _ ha => ?_
    split
    case isFalse => exact ⟨ha.exact hb.slot hb.start, trivial⟩
    case isTrue =>
      refine stops_readState_bind hb ha (fun _ => trivial) fun state h => ?_
      cases hstate.symm.trans h
  | some start =>
    obtain ⟨hb, ha⟩ := hnow (epochOf start roomId) fun state h =>
      Option.some.inj (hstate.symm.trans h) ▸ le_rfl
    refine stops_remote_bind hb ha nofun (fun _ _ _ => trivial) fun roomEpoch h _ ha => ?_
    split
    case isFalse => exact ⟨ha.exact hb.slot hb.start, trivial⟩
    case isTrue =>
      refine stops_readState_bind hb ha (fun _ => trivial) fun state h => ?_
      cases hstate.symm.trans h
      refine stops_remote_bind hb ha nofun (fun _ _ _ => trivial) fun memberDevices h _ ha => ?_
      refine stops_remote_bind hb ha nofun (fun _ _ _ => trivial) fun localMembers h _ ha => ?_
      have hremovals := changes_stops
        (f := removal p roomId roomEpoch.membershipRevision)
        (fun change x w' => removal_stops hmls hb)
        (platform.leaves (memberDifference localMembers.eraseDups memberDevices).1)
        ((start, none) : Native.Change σ) _ le_rfl ha (ha.exact hb.slot hb.start)
      refine hremovals.bind (fun removed w₁ h₁ => ?_) (fun _ _ h => ⟨h.1, trivial⟩)
        (fun _ h => ⟨h.1, trivial⟩)
      obtain ⟨hfirst₁, ha₁⟩ := h₁.2.2 _ rfl
      have hadditions := changes_stops
        (f := addition p roomId roomEpoch.membershipRevision)
        (fun change x w' => addition_stops hmls hb)
        ((platform.leaves (memberDifference localMembers.eraseDups memberDevices).2).map
          (·.deviceId)) removed w₁ hfirst₁ ha₁ h₁.1
      refine hadditions.bind (fun change w₂ h₂ => ?_) (fun _ _ h => ⟨h.1, trivial⟩)
        (fun _ h => ⟨h.1, trivial⟩)
      exact finish_stops hb (h₂.2.2 _ rfl).2

end

end OwnCommits

namespace Sample

/-- A server that takes every control of room 7, where only device 21 is left; the answers to
the submissions are lost. -/
def losingApi : List Submitted → (e : ApiRequest) → Except ClientError e.Reply × List Submitted
  | log, .getRoomEpoch room => (.ok ⟨room, 2, 1, .rekeyRequired, 0⟩, log)
  | log, .listRoomMemberDevices _ => (.ok [⟨5, [21]⟩], log)
  | log, .submitControlMessage room input => (.error .network, log ++ [(room, input)])
  | log, _ => (.error .network, log)

/-- Device 21 in a group with the device 31 of a user who has left. -/
def beforeRekey : DeviceStore CountingState where
  state := some (CountingState.initial.enter 7 1 [⟨5, 21⟩, ⟨6, 31⟩])
  profile := none
  pending := none
  records := fun _ => none
  metadata := none

/-- Its profile. -/
def memberProfile : DeviceProfile where
  deviceId := 21
  deviceLabel := "phone"
  registered := true
  keyPackagePublished := true
  deviceStatus := .active
  lastControlSequences := fun _ => none
  lastCommitMessageIds := Function.update (fun _ => none) 7 (some 101)

/-- What it talks to, with nothing accepted yet. -/
def losing : World CountingState (List Submitted × Uuid) := ⟨beforeRekey, [], 50⟩

/-- Android goes through its sets in order. -/
def android : Platform where
  leaves := id
  users := id
  trim := jsTrim
  blank := fun text => (jsTrim text).isEmpty
  validPart := fun part => part.nonce.length == 12 && part.dek.length == 32
  remember := rememberInPlace
  pendingFirst := false

theorem journal_losing : Journal (Host.of (countingHost losingApi)) Prod.fst where
  submit h := Or.inr (congrArg (fun p => p.2.1) h).symm
  other {h e r h'} hr hother := by
    have hh : (countingHost losingApi h e).2.1 = h'.1 := congrArg (fun p => p.2.1) hr
    rw [← hh]
    cases e with
    | api e =>
      cases e with
      | submitControlMessage room input => exact absurd rfl (hother room input)
      | _ => rfl
    | _ => rfl

end Sample

open Sample

end RedcodeIm
