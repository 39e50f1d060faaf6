import RedcodeIm.Coordinator.Ceiling
import RedcodeIm.Coordinator.OwnCommits

/-!
# Rekeys that are taken back

When a control of a rekey is not accepted, the H5 client looks at the epoch of the room; where
it has got as far as the rekey would have, it takes another device to have made the change and
takes its own back.  The epoch does not say whose Commits they were.

* `Relay` — what the servers do with the controls of a device.
* `RekeyPending` — a rekey as `reconcileGroup` leaves it.
* `Recovered` — no accepted Commit of the rekey has been abandoned.
* `TakenBack` — the answers on which it is taken back.
* `rekey_recovery` — when `resumePending` has finished, no Commit has been abandoned exactly when
  the rekey was not taken back after one of its Commits had been accepted.
-/

namespace RedcodeIm

open Awaiting List Action CountingState Action.Run

variable {σ ρ : Type}

/-! ## The servers -/

/-- What the servers do with the controls of a device: `accepted` are the ones they have
accepted, `active` are the epochs of the rooms, and `drawn` the identifiers that are not new
any more. -/
structure Relay (host : Host σ ρ) (groupOf : Bytes → Uuid) (accepted : ρ → List Submitted)
    (active : ρ → Uuid → ℕ) (drawn : ρ → Uuid → Prop) : Prop extends Journal host accepted where
  answered : ∀ {h room input h'},
    host h (.api (.submitControlMessage room input)) (.ok ()) h' → (room, input) ∈ accepted h'
  /-- A Commit is accepted at the next epoch. -/
  next : ∀ {h room input r h'}, host h (.api (.submitControlMessage room input)) r h' →
    (room, input) ∈ accepted h' → (room, input) ∉ accepted h → input.contentType = .commit →
      input.epoch = active h room + 1
  grows : ∀ {h e r h'}, host h e r h' → ∀ room, active h room ≤ active h' room
  reported : ∀ {h room latest h'}, host h (.api (.getRoomEpoch room)) (.ok latest) h' →
    latest.activeEpoch ≤ active h' room
  /-- The own Commits are not listed, and there is no other Commit of their epochs. -/
  listed : ∀ {h room device after messages h'}, host h
    (.api (.listControlMessages room device after controlPageLimit)) (.ok messages) h' →
      ∀ x ∈ accepted h, x.1 = room → x.2.contentType = .commit →
        ∀ m ∈ messages, m.contentType = .commit → m.epoch ≠ x.2.epoch
  /-- Welcomes are listed with the room of their group. -/
  elsewhere : ∀ {h room device after messages h'}, host h
    (.api (.listControlMessages room device after controlPageLimit)) (.ok messages) h' →
      ∀ m ∈ messages, m.contentType = .welcome → groupOf m.envelope = room
  draws : ∀ {h e r h'}, host h e r h' → ∀ id, drawn h id → drawn h' id
  fresh : ∀ {h id h'}, host h .newId (.ok id) h' → ¬ drawn h id

/-- The room is at an epoch, and no more Commits are accepted up to it than on the host
`origin`. -/
def Past (accepted : ρ → List Submitted) (active : ρ → Uuid → ℕ) (origin : ρ) (room epoch : ℕ)
    (h : ρ) : Prop :=
  epoch ≤ active h room ∧ ∀ x ∈ accepted h, x.1 = room → x.2.contentType = .commit →
    x.2.epoch ≤ epoch → x ∈ accepted origin

section

variable {host : Host σ ρ} {groupOf : Bytes → Uuid} {epochOf : σ → Uuid → ℕ}
  {accepted : ρ → List Submitted} {active : ρ → Uuid → ℕ} {drawn : ρ → Uuid → Prop}
  {origin : ρ} {room epoch : ℕ}

variable {e : RemoteEffect σ}

theorem Relay.past_step (hrelay : Relay host groupOf accepted active drawn) {h h' : ρ}
    {r : Answer e} (hpast : Past accepted active origin room epoch h) (hr : host h e r h') :
    Past accepted active origin room epoch h' := by
  refine ⟨hpast.1.trans (hrelay.grows hr room), fun x hx hroom hcommit hepoch => ?_⟩
  by_cases hold : x ∈ accepted h
  · exact hpast.2 x hold hroom hcommit hepoch
  -- a Commit that is new is beyond the epoch of the room
  by_cases hsubmit : ∃ room input, e = .api (.submitControlMessage room input)
  · obtain ⟨room', input, rfl⟩ := hsubmit
    rcases hrelay.submit hr with hsame | hmore
    · exact absurd (hsame ▸ hx) hold
    · rw [hmore, mem_append, mem_singleton] at hx
      obtain rfl := hx.resolve_left hold
      obtain rfl : room' = room := hroom
      have hnext : input.epoch = active h room' + 1 := hrelay.next hr
        (hmore ▸ mem_append_right _ (mem_singleton_self _)) hold hcommit
      have hactive : epoch ≤ active h room' := hpast.1
      have hle : input.epoch ≤ epoch := hepoch
      omega
  · have hsame := hrelay.other hr fun room input he => hsubmit ⟨room, input, he⟩
    exact absurd (hsame ▸ hx) hold

/-- What was accepted stays accepted. -/
theorem Journal.keeps (hjournal : Journal host accepted) {h h' : ρ} {r : Answer e}
    (hr : host h e r h') {x : Submitted} (hx : x ∈ accepted h) :
    x ∈ accepted h' := by
  by_cases hsubmit : ∃ room input, e = .api (.submitControlMessage room input)
  · obtain ⟨room, input, rfl⟩ := hsubmit
    rcases hjournal.submit hr with hsame | hmore
    · exact hsame ▸ hx
    · exact hmore ▸ mem_append_left _ hx
  · exact hjournal.other hr (fun room input he => hsubmit ⟨room, input, he⟩) ▸ hx

/-! ## Behind an accepted Commit -/

/-- From `origin` on, a Commit of the device at an epoch of a room has been accepted. -/
structure Behind (accepted : ρ → List Submitted) (active : ρ → Uuid → ℕ)
    (drawn : ρ → Uuid → Prop) (origin : ρ) (room epoch : ℕ) (h : ρ) : Prop where
  past : Past accepted active origin room epoch h
  commit : ∃ x ∈ accepted h, x.1 = room ∧ x.2.contentType = .commit ∧ x.2.epoch = epoch
  drawn : ∀ id, drawn origin id → drawn h id

theorem Relay.behind_step (hrelay : Relay host groupOf accepted active drawn) {h h' : ρ}
    {r : Answer e} (hb : Behind accepted active drawn origin room epoch h) (hr : host h e r h') :
    Behind accepted active drawn origin room epoch h' where
  past := hrelay.past_step hb.past hr
  commit := by
    obtain ⟨x, hx, hcommit⟩ := hb.commit
    exact ⟨x, hrelay.keeps hr hx, hcommit⟩
  drawn id hid := hrelay.draws hr id (hb.drawn id hid)

/-- Commits of which none is of an epoch do not lead a group from below to it. -/
theorem processed_below (hmls : MlsEpochs host epochOf groupOf) {messages : List ControlMessage}
    {state state' : σ} (h : Processed host room messages state state')
    (hnone : ∀ m ∈ messages, m.epoch ≠ epoch) (hstate : epochOf state room < epoch) :
    epochOf state' room < epoch := by
  induction h with
  | nil state => exact hstate
  | @cons message rest state next state' hcommit hgives _ ih =>
    obtain ⟨hnext, hnow, -⟩ := hmls.processCommit hgives
    have hnow' : epochOf next room = message.epoch := hnow
    have hother := hnone message mem_cons_self
    exact ih (fun m hm => hnone m (mem_cons_of_mem _ hm)) (by omega)

/-- The device stays behind its own Commit. -/
def behindLimit (drawn : ρ → Uuid → Prop) (origin : ρ) (room epoch : ℕ) : Limit where
  bound := epoch - 1
  known := fun p => p.joined room = true
  reads := fun _ => True
  stale := drawn origin

theorem Relay.ceiling (hrelay : Relay host groupOf accepted active drawn)
    (hmls : MlsEpochs host epochOf groupOf) (room : Uuid) (hpos : 0 < epoch)
    (hdrawn : ∀ x ∈ accepted origin, drawn origin x.2.id) :
    Ceiling (host.within (Behind accepted active drawn origin room epoch)) epochOf groupOf room
      (behindLimit drawn origin room epoch) where
  commit hp other last := DeviceProfile.joined_withCommit_of_joined _ _ _ _ hp
  elsewhereRead hp _ n := hp
  read hp _ last := DeviceProfile.joined_withCommit_of_joined _ _ _ _ hp
  status {p p'} hp _ hcommits := by
    have hj : p'.joined room = p.joined room := by simp [DeviceProfile.joined, hcommits]
    exact hj.trans hp
  page {p state state' messages last} hp hstate hlist _ hbatch := by
    have hjoined : p.joined room = true := hp
    obtain ⟨h, h', hb, hr⟩ := hlist
    obtain ⟨x, hx, hroom, hcommit, hepoch⟩ := hb.commit
    rw [hjoined] at hbatch
    cases hbatch with
    | member hprocessed =>
      have hbelow : epochOf state' room < epoch := by
        refine processed_below (hmls.mono fun h => ?_) hprocessed (fun m hm => ?_) ?_
        · obtain ⟨h, h', -, hr⟩ := h
          exact ⟨h, h', hr⟩
        · exact hepoch ▸ hrelay.listed hr x hx hroom hcommit m hm
            (processed_commits hprocessed m hm)
        · simp only [behindLimit] at hstate
          omega
      refine ⟨trivial, ?_⟩
      simp only [behindLimit]
      omega
  elsewhere hne hlist m hm hwelcome := by
    obtain ⟨h, h', -, hr⟩ := hlist
    rw [hrelay.elsewhere hr m hm hwelcome]
    exact hne
  refused {input} haccepted hcommit hle := by
    obtain ⟨h, h', hb, hr⟩ := haccepted
    have hle' : input.epoch ≤ epoch := by
      simp only [behindLimit] at hle
      omega
    exact hdrawn _ ((hrelay.past_step hb.past hr).2 _ (hrelay.answered hr) rfl hcommit hle')
  fresh hid := by
    obtain ⟨h, h', hb, hr⟩ := hid
    exact fun hstale => hrelay.fresh hr (hb.drawn _ hstale)

end

/-! ## The rekey -/

/-- A pending rekey as `reconcileGroup` leaves it, on a host that knows its identifiers. -/
structure RekeyPending (host : Host σ ρ) (accepted : ρ → List Submitted)
    (drawn : ρ → Uuid → Prop) (op : PendingOperation σ) (w : World σ ρ) : Prop where
  pending : w.device.pending = some op
  kind : op.kind = .rekey
  drafted : ∃ previous revision, op.previousState = some previous ∧
    Drafted host op.roomId revision (previous, []) (op.nextState, op.controls)
  controls : op.controls ≠ []
  joined : ∀ p, w.device.profile = some p → p.joined op.roomId = true
  drawnControls : ∀ c ∈ op.controls, drawn w.host c.id
  drawnAccepted : ∀ x ∈ accepted w.host, drawn w.host x.2.id

/-- The control of an operation, as it is submitted. -/
def PendingOperation.submitted (op : PendingOperation σ) (c : PendingControl) : Submitted :=
  (op.roomId, c.submission op.senderDeviceId)

/-- None of the operation's Commits that have been accepted is abandoned: the operation is
still pending, or the stored state is beyond the Commit, of which it is the only one of its
epoch, and its Welcomes have been accepted as well. -/
def Recovered (epochOf : σ → Uuid → ℕ) (accepted : ρ → List Submitted) (op : PendingOperation σ)
    (w : World σ ρ) : Prop :=
  ∀ c ∈ op.controls, c.contentType = .commit → op.submitted c ∈ accepted w.host →
    w.device.pending = some op ∨
    (∃ state, w.device.state = some state ∧ c.epoch ≤ epochOf state op.roomId) ∧
      ∀ d ∈ op.controls, d.contentType = .welcome → d.epoch = c.epoch →
        op.submitted d ∈ accepted w.host

/-- The first answer that was an error was followed by an epoch of the room that is not below
the last of the operation. -/
def TakenBack (op : PendingOperation σ) (events : List (Event (clientEffects σ))) : Prop :=
  ∃ before e err latest after last, events = before ++ ⟨e, .error err⟩ ::
      ⟨.remote (.api (.getRoomEpoch op.roomId)), .ok latest⟩ :: after ∧
    (∀ x ∈ before, Event.Succeeded x) ∧ op.controls.getLast? = some last ∧
    last.epoch ≤ latest.activeEpoch

section

variable {host : Host σ ρ} {groupOf : Bytes → Uuid} {epochOf : σ → Uuid → ℕ}
  {accepted : ρ → List Submitted} {active : ρ → Uuid → ℕ} {drawn : ρ → Uuid → Prop}
  {op : PendingOperation σ} {w w' : World σ ρ}

/-- The submission of the controls of an operation, run to its end. -/
theorem submitControls_run (hrelay : Relay host groupOf accepted active drawn) :
    ∀ (controls : List PendingControl) {w w' : World σ ρ}
      {events : List (Event (clientEffects σ))} {o : Outcome (clientEffects σ) Unit},
      Action.Run host.env (submitControls op controls) w events (ended o) w' →
        w'.device = w.device ∧
        (∀ x ∈ accepted w.host, x ∈ accepted w'.host) ∧
        (∀ x ∈ accepted w'.host, x ∈ accepted w.host ∨ ∃ c ∈ controls, x = op.submitted c) ∧
        (o = .done () ∧ (∀ x ∈ events, Event.Succeeded x) ∧
            (∀ c ∈ controls, op.submitted c ∈ accepted w'.host) ∨
          ∃ before e err, o = .fail err ∧ events = before ++ [⟨e, .error err⟩] ∧
            ∀ x ∈ before, Event.Succeeded x)
  | [], w, w', events, o, hrun => by
    obtain ⟨rfl, rfl, rfl⟩ := hrun.of_ended (o := .done ())
    exact ⟨rfl, fun _ h => h, fun _ h => Or.inl h, Or.inl ⟨rfl, forall_mem_nil _,
      forall_mem_nil _⟩⟩
  | control :: rest, w, w', events, o, hrun => by
    have hnew : ∀ {r : Answer (.api (.submitControlMessage op.roomId
        (control.submission op.senderDeviceId)) : RemoteEffect σ)} {h : ρ},
        host w.host _ r h → ∀ x ∈ accepted h, x ∈ accepted w.host ∨ x = op.submitted control := by
      intro r h hr x hx
      rcases hrelay.submit hr with hsame | hmore
      · exact Or.inl (hsame ▸ hx)
      · rw [hmore, mem_append, mem_singleton] at hx
        exact hx
    rcases run_remote_bind hrun with ⟨a, h, later, hr, rfl, hlater⟩ | ⟨err, h, hr, rfl, rfl, rfl⟩
    · obtain ⟨hdevice, hkept, hadded, hend⟩ := submitControls_run hrelay rest hlater
      refine ⟨hdevice, fun x hx => hkept x (hrelay.keeps hr hx), fun x hx => ?_, ?_⟩
      · rcases hadded x hx with hx | ⟨c, hc, rfl⟩
        · exact (hnew hr x hx).imp_right fun h => ⟨control, mem_cons_self, h⟩
        · exact Or.inr ⟨c, mem_cons_of_mem _ hc, rfl⟩
      · rcases hend with ⟨rfl, hall, haccepted⟩ | ⟨before, e, err, rfl, rfl, hall⟩
        · exact Or.inl ⟨rfl, forall_mem_cons.2 ⟨⟨a, rfl⟩, hall⟩,
            forall_mem_cons.2 ⟨hkept _ (hrelay.answered hr), haccepted⟩⟩
        · exact Or.inr ⟨_ :: before, e, err, rfl, rfl, forall_mem_cons.2 ⟨⟨a, rfl⟩, hall⟩⟩
    · refine ⟨rfl, fun x hx => hrelay.keeps hr hx, fun x hx => ?_, Or.inr ⟨[], _, err, rfl, rfl,
        forall_mem_nil _⟩⟩
      exact (hnew hr x hx).imp_right fun h => ⟨control, mem_cons_self, h⟩

/-! ## The runs -/

variable {events : List (Event (clientEffects σ))}

theorem not_takenBack (h : ∀ x ∈ events, Event.Succeeded x) : ¬ TakenBack op events := by
  rintro ⟨before, e, err, latest, after, last, rfl, -⟩
  obtain ⟨a, ha⟩ := h ⟨e, .error err⟩ (mem_append_right _ mem_cons_self)
  cases ha

variable {last : PendingControl}

/-- What the first error is followed by decides. -/
theorem takenBack_iff {before rest : List (Event (clientEffects σ))} {e : Effect σ}
    {err : ClientError} (h : ∀ x ∈ before, Event.Succeeded x)
    (hlast : op.controls.getLast? = some last) :
    TakenBack op (before ++ ⟨e, .error err⟩ :: rest) ↔ ∃ latest after,
      rest = ⟨.remote (.api (.getRoomEpoch op.roomId)), .ok latest⟩ :: after ∧
        last.epoch ≤ latest.activeEpoch := by
  constructor
  · rintro ⟨before', e', err', latest, after, last', heq, hall, hlast', hle⟩
    cases hlast.symm.trans hlast'
    exact ⟨latest, after, Event.first_failure h hall heq, hle⟩
  · rintro ⟨latest, after, rfl, hle⟩
    exact ⟨before, e, err, latest, after, last, rfl, h, hlast, hle⟩

theorem recovered_of_pending (h : w.device.pending = some op) : Recovered epochOf accepted op w :=
  fun _ _ _ _ => Or.inl h

variable {p : DeviceProfile} {v : World σ ρ} {o : Outcome (clientEffects σ) Unit}

/-- The rekey is completed, or left pending. -/
theorem finishRekey_run (hmls : MlsEpochs host epochOf groupOf)
    (hop : RekeyPending host accepted drawn op w) (hdevice : v.device = w.device)
    (haccepted : ∀ c ∈ op.controls, op.submitted c ∈ accepted v.host)
    (hrun : Action.Run host.env (finishRekey op p) v events (ended o) w') :
    Recovered epochOf accepted op w' ∧ ∀ x ∈ events, Event.Succeeded x := by
  have hpending : v.device.pending = some op := (congrArg _ hdevice).trans hop.pending
  obtain ⟨previous, revision, -, hdrafted⟩ := hop.drafted
  have hepochs := drafted_epochs hmls hdrafted
  obtain ⟨later, rfl, hlater⟩ := run_store_bind hrun
  have hwrite : Event.Succeeded (⟨.storage (.write op.nextState), .ok ()⟩ :
      Event (clientEffects σ)) := ⟨(), rfl⟩
  cases hlast : lastCommitId op.controls with
  | none =>
    rw [hlast] at hlater
    obtain ⟨rfl, rfl, rfl⟩ := of_ended
      (o := (.fail .missingField : Outcome (clientEffects σ) Unit)) hlater
    exact ⟨recovered_of_pending hpending, forall_mem_singleton.2 hwrite⟩
  | some last =>
    rw [hlast] at hlater
    obtain ⟨final, rfl, hend⟩ := run_store_bind hlater
    obtain ⟨r, w₁, rest, ⟨rfl, rfl⟩, rfl, hrest⟩ := of_await hend
    obtain ⟨rfl, rfl, rfl⟩ := hrest.of_ended (o := .done ())
    refine ⟨fun c hc hcommit _ => Or.inr ⟨⟨op.nextState, rfl, (hepochs.controls c hc).2⟩,
      fun d hd _ _ => haccepted d hd⟩, ?_⟩
    exact forall_mem_cons.2 ⟨hwrite, forall_mem_cons.2 ⟨⟨(), rfl⟩,
      forall_mem_singleton.2 ⟨(), rfl⟩⟩⟩

variable {accountId : Uuid} {fuel : ℕ}

/-- A rekey that was taken back after one of its Commits had been accepted: the Commit is
abandoned. -/
theorem abandoned (hrelay : Relay host groupOf accepted active drawn)
    (hmls : MlsEpochs host epochOf groupOf) (hop : RekeyPending host accepted drawn op w)
    {previous : σ} (hprevious : op.previousState = some previous) (hp : w.device.profile = some p)
    (hdevice : v.device = { w.device with state := some previous, pending := none })
    (hdrawn : ∀ id, drawn w.host id → drawn v.host id)
    (hall : ∀ x ∈ accepted v.host, drawn v.host x.2.id) {deviceLabel : String}
    (hlast : op.controls.getLast? = some last) (hle : last.epoch ≤ active v.host op.roomId)
    (hrun : Action.Run host.env (syncControls accountId fuel deviceLabel op.roomId) v events
      (ended o) w') {c : PendingControl} (hc : c ∈ op.controls)
    (hcommit : c.contentType = .commit) (haccepted : op.submitted c ∈ accepted w'.host) :
    ¬ Recovered epochOf accepted op w' := by
  obtain ⟨previous', revision, hprevious', hdrafted⟩ := hop.drafted
  cases hprevious.symm.trans hprevious'
  have hepochs := drafted_epochs hmls hdrafted
  obtain ⟨hbelow, hnext⟩ := hepochs.controls c hc
  have hactive : c.epoch ≤ active v.host op.roomId := (hepochs.last last hlast ▸ hnext).trans hle
  -- the Commit had been accepted when the rekey was taken back
  have hpast : Past accepted active v.host op.roomId c.epoch v.host :=
    ⟨hactive, fun _ hx _ _ _ => hx⟩
  have hbefore : op.submitted c ∈ accepted v.host :=
    (run_within (I := Past accepted active v.host op.roomId c.epoch)
      (fun _ _ _ _ hI hr => hrelay.past_step hI hr) hpast hrun).2.2 _ haccepted rfl hcommit le_rfl
  have hbehind : Behind accepted active drawn v.host op.roomId c.epoch v.host :=
    ⟨hpast, ⟨_, hbefore, rfl, hcommit, rfl⟩, fun _ h => h⟩
  have hpos : 0 < c.epoch := Nat.zero_lt_of_lt hbelow
  have hceiling := hrelay.ceiling hmls op.roomId hpos hall
  have hmls' : MlsEpochs (host.within (Behind accepted active drawn v.host op.roomId c.epoch))
      epochOf groupOf := hmls.mono fun ⟨h, h', _, hr⟩ => ⟨h, h', hr⟩
  have hunder : Under epochOf op.roomId (behindLimit drawn v.host op.roomId c.epoch) v.device := by
    rw [hdevice]
    refine ⟨⟨previous, rfl, ?_⟩, ⟨p, hp, hop.joined p hp⟩, nofun⟩
    exact Nat.le_sub_one_of_lt hbelow
  -- so what the client does next keeps it behind it
  have hend : Under epochOf op.roomId (behindLimit drawn v.host op.roomId c.epoch) w'.device := by
    refine (syncControls_permitted accountId fuel deviceLabel op.roomId v).holds
      (I := fun w => Under epochOf op.roomId (behindLimit drawn v.host op.roomId c.epoch) w.device)
      (fun w₁ e r w₂ hI hG he => ?_) hunder
      (run_within (I := Behind accepted active drawn v.host op.roomId c.epoch)
        (fun _ _ _ _ hI hr => hrelay.behind_step hI hr) hbehind hrun).1
    cases e with
    | storage e =>
      obtain ⟨-, rfl⟩ := he
      exact hceiling.keeps hmls' hI hG
    | remote e =>
      obtain ⟨h, -, rfl⟩ := he
      exact hI
  intro hrecovered
  rcases hrecovered c hc hcommit haccepted with hpending | ⟨⟨state, hstate, hepoch⟩, -⟩
  · rcases (hend.pending op hpending).next with hle | ⟨-, -, d, hd, -, -, hfresh⟩
    · have hle' : epochOf op.nextState op.roomId ≤ c.epoch - 1 := hle
      have hnext' : c.epoch ≤ epochOf op.nextState op.roomId := hnext
      omega
    · exact hfresh (hdrawn _ (hop.drawnControls d hd))
  · obtain ⟨state', hstate', hle⟩ := hend.state
    obtain rfl : state' = state := Option.some.inj (hstate'.symm.trans hstate)
    have hle' : epochOf state' op.roomId ≤ c.epoch - 1 := hle
    omega

/-- The way back from a rekey, run to its end: the rekey is still pending, or it has been taken
back. -/
theorem restoreRekey_run (hrelay : Relay host groupOf accepted active drawn)
    (hmls : MlsEpochs host epochOf groupOf) (hop : RekeyPending host accepted drawn op w)
    (hp : w.device.profile = some p) (hdevice : v.device = w.device)
    (hdrawn : ∀ id, drawn w.host id → drawn v.host id)
    (hall : ∀ x ∈ accepted v.host, drawn v.host x.2.id) (hlast : op.controls.getLast? = some last)
    {err : ClientError}
    (hrun : Action.Run host.env (restoreRekey (syncControls accountId fuel) op p last.epoch err) v
      events (ended o) w') :
    (w'.device.pending = some op ∧ ¬ ∃ latest after,
        events = ⟨.remote (.api (.getRoomEpoch op.roomId)), .ok latest⟩ :: after ∧
          last.epoch ≤ latest.activeEpoch) ∨
      (∃ latest after,
        events = ⟨.remote (.api (.getRoomEpoch op.roomId)), .ok latest⟩ :: after ∧
          last.epoch ≤ latest.activeEpoch) ∧
      ∀ c ∈ op.controls, c.contentType = .commit → op.submitted c ∈ accepted w'.host →
        ¬ Recovered epochOf accepted op w' := by
  have hpending : v.device.pending = some op := (congrArg _ hdevice).trans hop.pending
  obtain ⟨previous, revision, hprevious, -⟩ := hop.drafted
  rcases run_remote_bind hrun with
    ⟨latest, h, later, hr, rfl, hlater⟩ | ⟨err', h, hr, rfl, rfl, rfl⟩
  · split at hlater
    case isFalse hbelow =>
      obtain ⟨rfl, rfl, rfl⟩ := of_ended
        (o := (.fail err : Outcome (clientEffects σ) Unit)) hlater
      refine Or.inl ⟨hpending, ?_⟩
      rintro ⟨latest', after, heq, hle⟩
      cases heq
      exact hbelow hle
    case isTrue hle =>
      rw [hprevious] at hlater
      obtain ⟨written, rfl, hwritten⟩ := run_store_bind hlater
      obtain ⟨deleted, rfl, hdeleted⟩ := run_store_bind hwritten
      refine Or.inr ⟨⟨latest, _, rfl, hle⟩, fun c hc hcommit haccepted => ?_⟩
      have hsame : accepted h = accepted v.host := hrelay.other hr fun _ _ heq => by cases heq
      refine abandoned hrelay hmls hop hprevious hp (v := ⟨_, h⟩) (by rw [hdevice]; rfl)
        (fun id hid => hrelay.draws hr id (hdrawn id hid)) (fun x hx => ?_) hlast
        (hle.trans (hrelay.reported hr)) hdeleted hc hcommit haccepted
      exact hrelay.draws hr _ (hall x (hsame ▸ hx))
  · refine Or.inl ⟨hpending, ?_⟩
    rintro ⟨latest, after, heq, -⟩
    cases heq

/-- What becomes of a rekey, by the answers it got. -/
def Judged (epochOf : σ → Uuid → ℕ) (accepted : ρ → List Submitted) (op : PendingOperation σ)
    (events : List (Event (clientEffects σ))) (w : World σ ρ) : Prop :=
  (Recovered epochOf accepted op w ∧ ¬ TakenBack op events) ∨
    TakenBack op events ∧ ∀ c ∈ op.controls, c.contentType = .commit →
      op.submitted c ∈ accepted w.host → ¬ Recovered epochOf accepted op w

/-- A good answer before the others changes nothing. -/
theorem takenBack_cons {x : Event (clientEffects σ)} (hx : Event.Succeeded x) :
    TakenBack op (x :: events) ↔ TakenBack op events := by
  constructor
  · rintro ⟨before, e, err, latest, after, last, heq, hall, hlast, hle⟩
    cases before with
    | nil =>
      obtain ⟨rfl, -⟩ := cons.inj heq
      obtain ⟨a, ha⟩ := hx
      cases ha
    | cons y before =>
      cases heq
      exact ⟨before, e, err, latest, after, last, rfl, (forall_mem_cons.1 hall).2, hlast, hle⟩
  · rintro ⟨before, e, err, latest, after, last, rfl, hall, hlast, hle⟩
    exact ⟨x :: before, e, err, latest, after, last, rfl, forall_mem_cons.2 ⟨hx, hall⟩,
      hlast, hle⟩

theorem resumeRekey_run (hrelay : Relay host groupOf accepted active drawn)
    (hmls : MlsEpochs host epochOf groupOf) (hop : RekeyPending host accepted drawn op w)
    (hrun : Action.Run host.env (resumeRekey (syncControls accountId fuel) op) w events
      (ended o) w') : Judged epochOf accepted op events w' := by
  rw [resumeRekey, requiredProfile, bind_assoc] at hrun
  obtain ⟨later, rfl, hlater⟩ := run_store_bind hrun
  rw [Judged, takenBack_cons ⟨_, rfl⟩]
  cases hp : w.device.profile with
  | none =>
    simp only [DeviceStore.perform, hp] at hlater
    obtain ⟨rfl, rfl, rfl⟩ := of_ended (o := (.fail (.directMessage
      "E2EE 设备档案缺失") : Outcome (clientEffects σ) Unit)) hlater
    exact Or.inl ⟨recovered_of_pending hop.pending, not_takenBack (forall_mem_nil _)⟩
  | some p =>
    simp only [DeviceStore.perform, hp, pure_eq, done_bind] at hlater
    obtain ⟨last, hlast⟩ : ∃ last, op.controls.getLast? = some last :=
      ⟨_, getLast?_eq_some_getLast hop.controls⟩
    simp only [hlast, required, pure_eq, done_bind] at hlater
    obtain ⟨o₁, w₁, before, after, hbefore, rfl, hafter⟩ := of_bind hlater
    obtain ⟨o₂, hsubmit, rfl⟩ := of_attempt hbefore
    obtain ⟨hdevice, hkept, hadded, hend⟩ := submitControls_run hrelay _ hsubmit
    rcases hend with ⟨rfl, hgood, haccepted⟩ | ⟨good, e, err, rfl, rfl, hgood⟩
    · obtain ⟨hrecovered, hafterGood⟩ := finishRekey_run hmls hop hdevice haccepted hafter
      exact Or.inl ⟨hrecovered, not_takenBack fun x hx =>
        (mem_append.1 hx).elim (hgood x) (hafterGood x)⟩
    · have hdrawn : ∀ id, drawn w.host id → drawn w₁.host id := fun id hid =>
        (run_within (I := fun h => drawn h id) (fun _ _ _ _ hI hr => hrelay.draws hr id hI) hid
          hsubmit).2
      have hall : ∀ x ∈ accepted w₁.host, drawn w₁.host x.2.id := by
        intro x hx
        rcases hadded x hx with hx | ⟨c, hc, rfl⟩
        · exact hdrawn _ (hop.drawnAccepted x hx)
        · exact hdrawn _ (hop.drawnControls c hc)
      rw [append_assoc, singleton_append, takenBack_iff hgood hlast]
      rcases restoreRekey_run hrelay hmls hop hp hdevice hdrawn hall hlast hafter with
        ⟨hpending, hnot⟩ | hback
      · exact Or.inl ⟨recovered_of_pending hpending, hnot⟩
      · exact Or.inr hback

end

/-- **The recovery of a rekey**: when `resumePending` has finished, whatever the answers were
and whatever others have done, no accepted Commit of the operation has been abandoned exactly
when the operation was not taken back, or none of its Commits has been accepted. -/
theorem rekey_recovery {host : Host σ ρ} {epochOf : σ → Uuid → ℕ} {groupOf : Bytes → Uuid}
    (hmls : MlsEpochs host epochOf groupOf) {accepted : ρ → List Submitted}
    {active : ρ → Uuid → ℕ} {drawn : ρ → Uuid → Prop}
    (hrelay : Relay host groupOf accepted active drawn) {op : PendingOperation σ}
    {w w' : World σ ρ} (hop : RekeyPending host accepted drawn op w) {accountId : Uuid} {fuel : ℕ}
    {allowApplication : Bool} {events : List (Event (clientEffects σ))}
    {o : Outcome (clientEffects σ) (Option Uuid)}
    (hrun : Action.Run host.env (resumePending (syncControls accountId fuel) allowApplication) w
      events (ended o) w') :
    Recovered epochOf accepted op w' ↔ (TakenBack op events → ∀ c ∈ op.controls,
      c.contentType = .commit → op.submitted c ∉ accepted w'.host) := by
  obtain ⟨later, rfl, hlater⟩ := run_store_bind hrun
  rw [takenBack_cons ⟨_, rfl⟩]
  simp only [DeviceStore.perform, hop.pending, hop.kind] at hlater
  obtain ⟨o₁, w₁, before, after, hbefore, rfl, hafter⟩ := of_bind hlater
  have hnothing : after = [] ∧ w' = w₁ := by
    cases o₁ with
    | done a => exact (of_ended (o := (.done none :
        Outcome (clientEffects σ) (Option Uuid))) hafter).2
    | fail | spent => exact hafter.2
  obtain ⟨rfl, rfl⟩ := hnothing
  rw [append_nil]
  rcases resumeRekey_run hrelay hmls hop hbefore with ⟨hrecovered, hnot⟩ | ⟨hback, habandoned⟩
  · exact iff_of_true hrecovered fun hback => absurd hback hnot
  · refine ⟨fun hrecovered _ c hc hcommit haccepted =>
      habandoned c hc hcommit haccepted hrecovered, fun hnone c hc hcommit haccepted => ?_⟩
    exact absurd haccepted (hnone hback c hc hcommit)

namespace Sample

/-- A server of room 7, at epoch 1 and the ones after it, that takes the Commits of the next
epoch; the answers to the submissions are lost. -/
def lossyApi : List Submitted → (e : ApiRequest) → Except ClientError e.Reply × List Submitted
  | log, .getRoomEpoch room => (.ok ⟨room, 2, 1 + log.length, .active, 0⟩, log)
  | log, .listControlMessages .. => (.ok [], log)
  | log, .submitControlMessage room input =>
    if input.contentType = .commit ∧ input.epoch = 2 + log.length then
      (.error .network, log ++ [(room, input)])
    else (.error (.api 409), log)
  | log, _ => (.error .network, log)

/-- Device 21 with a rekey that removes the device 31 of a user who has left. -/
def rekey : PendingOperation CountingState where
  kind := .rekey
  roomId := 7
  nextState :=
    enter (initial.enter 7 1 [⟨5, 21⟩, ⟨6, 31⟩]) 7 2 [⟨5, 21⟩]
  senderDeviceId := 21
  idempotencyKey := 51
  controls := [⟨50, 2, 2, .commit, countingEnvelope 7 2, none, none⟩]
  ciphertext := none
  epoch := none
  controlMessageId := none
  previousState := some (initial.enter 7 1 [⟨5, 21⟩, ⟨6, 31⟩])

/-- Its world, with nothing accepted yet. -/
def rekeying : World CountingState (List Submitted × Uuid) :=
  ⟨{ beforeRekey with profile := some memberProfile, pending := some rekey }, [], 60⟩

theorem relay_lossy : Relay (Host.of (countingHost lossyApi)) countingRoom Prod.fst
    (fun h _ => 1 + h.1.length) (fun h id => id < h.2) where
  submit {h room input r h'} hr := by
    have hh : (lossyApi h.1 (.submitControlMessage room input)).2 = h'.1 :=
      congrArg (fun p => p.2.1) hr
    rw [← hh]
    simp only [lossyApi]
    split
    · exact Or.inr rfl
    · exact Or.inl rfl
  other {h e r h'} hr hother := by
    have hh : (countingHost lossyApi h e).2.1 = h'.1 := congrArg (fun p => p.2.1) hr
    rw [← hh]
    cases e with
    | api e =>
      cases e with
      | submitControlMessage room input => exact absurd rfl (hother room input)
      | _ => rfl
    | _ => rfl
  answered {h room input h'} hr := by
    have hh : (lossyApi h.1 (.submitControlMessage room input)).1 = .ok () := congrArg Prod.fst hr
    simp only [lossyApi] at hh
    split at hh <;> cases hh
  next {h room input r h'} hr hin hnew hcommit := by
    have hh : (lossyApi h.1 (.submitControlMessage room input)).2 = h'.1 :=
      congrArg (fun p => p.2.1) hr
    rw [← hh] at hin
    simp only [lossyApi] at hin
    split at hin
    case isTrue hnext => omega
    case isFalse => exact absurd hin hnew
  grows {h e r h'} hr room := by
    have hh : (countingHost lossyApi h e).2.1 = h'.1 := congrArg (fun p => p.2.1) hr
    rw [← hh]
    cases e with
    | api e =>
      cases e with
      | submitControlMessage room input =>
        simp only [countingHost, lossyApi]
        split
        · simp only [length_append]
          omega
        · exact le_rfl
      | _ => exact le_rfl
    | _ => exact le_rfl
  reported hr := by
    cases hr
    exact le_rfl
  listed hr := by
    cases hr
    exact fun _ _ _ _ => forall_mem_nil _
  elsewhere hr := by
    cases hr
    exact forall_mem_nil _
  draws {h e r h'} hr id hid := by
    have hh : (countingHost lossyApi h e).2.2 = h'.2 := congrArg (fun p => p.2.2) hr
    rw [← hh]
    cases e with
    | newId => exact Nat.lt_succ_of_lt hid
    | _ => exact hid
  fresh hr := by
    cases hr
    exact lt_irrefl _

theorem rekeyPending_rekeying : RekeyPending (Host.of (countingHost lossyApi)) Prod.fst
    (fun h id => id < h.2) rekey rekeying where
  pending := rfl
  kind := rfl
  drafted := by
    have hgives : (Host.of (countingHost lossyApi)).Gives
        (.core (.removeMember (initial.enter 7 1 [⟨5, 21⟩, ⟨6, 31⟩]) 7 ⟨6, 31⟩))
        (.ok (⟨rekey.nextState, countingEnvelope 7 2, 2⟩ : RemovedMember CountingState)) :=
      ⟨([], 0), ([], 0), rfl⟩
    have hid : (Host.of (countingHost lossyApi)).Gives .newId (.ok (50 : Uuid)) :=
      ⟨([], 50), ([], 51), rfl⟩
    have hstep : DraftStep (Host.of (countingHost lossyApi)) 7 2
        (initial.enter 7 1 [⟨5, 21⟩, ⟨6, 31⟩], [])
        (rekey.nextState, rekey.controls) :=
      @DraftStep.removal _ _ _ _ _ (_, []) _ _ _ hgives hid
    exact ⟨_, 2, rfl, .single hstep⟩
  controls := cons_ne_nil _ _
  joined := by
    intro p hp
    cases hp
    rfl
  drawnControls := by decide
  drawnAccepted := forall_mem_nil _

end Sample

open Sample

/-- The Commit is accepted and the answer is lost; the room is at the Commit's own epoch, and
the old state is restored. -/
theorem rekey_abandoned :
    ¬ ∀ events o w', Action.Run (Host.of (countingHost lossyApi)).env
      (resumePending (syncControls 5 3) false) rekeying events (ended o) w' →
        Recovered epochs Prod.fst rekey w' := by
  intro hall
  obtain ⟨events, hrun⟩ := run_exec (h := worldHandler (countingHost lossyApi))
    (resumePending (syncControls 5 3) false) rekeying
  rw [env_worldHandler] at hrun
  rcases hall _ _ _ hrun _ (mem_singleton_self _) rfl (by decide) with
    hpending | ⟨⟨state, hstate, hepoch⟩, -⟩
  · cases hpending
  · cases hstate
    exact absurd hepoch (by decide)

theorem rekey_recovery_sample : ∃ events o w',
    Action.Run (Host.of (countingHost lossyApi)).env
      (resumePending (syncControls 5 3) false) rekeying events (ended o) w' ∧
    (Recovered epochs Prod.fst rekey w' ↔
      (TakenBack rekey events → ∀ c ∈ rekey.controls, c.contentType = .commit →
        rekey.submitted c ∉ w'.host.1)) := by
  obtain ⟨events, hrun⟩ := run_exec (h := worldHandler (countingHost lossyApi))
    (resumePending (syncControls 5 3) false) rekeying
  rw [env_worldHandler] at hrun
  exact ⟨_, _, _, hrun, rekey_recovery (mlsEpochs_counting _) relay_lossy
    rekeyPending_rekeying hrun⟩

end RedcodeIm
