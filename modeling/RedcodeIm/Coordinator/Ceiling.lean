import RedcodeIm.Coordinator.NativeDiscipline
import RedcodeIm.Coordinator.MlsCore

/-!
# Epochs a device cannot get beyond

A device gets to another epoch of a group by the control messages of the others and by the
Commits of its own that the server accepts.  Where neither leads beyond an epoch, no sequence
of calls does.

* `processed_epoch`, `drafted_epochs`, `batched_epoch` — the epochs of batches and of drafts.
* `Limit`, `Ceiling` — an epoch, what is known of the device below it, and why it stays there.
* `Under` — the devices that are below it.
* `Ceiling.holds`, `Ceiling.holdsNative` — no sequence of calls gets a device beyond it.
-/

namespace RedcodeIm

open Awaiting List

variable {σ ρ : Type}

/-! ## Epochs -/

section

variable {host : Host σ ρ} {epochOf : σ → Uuid → ℕ} {groupOf : Bytes → Uuid}

/-- A batch in two parts. -/
theorem processed_append {roomId : Uuid} :
    ∀ {before after : List ControlMessage} {state state' : σ},
      Processed host roomId (before ++ after) state state' →
        ∃ middle, Processed host roomId before state middle ∧
          Processed host roomId after middle state'
  | [], _, state, _, h => ⟨state, .nil state, h⟩
  | _ :: _, _, _, _, h => by
    cases h with
    | cons hcommit hgives hrest =>
      obtain ⟨middle, hbefore, hafter⟩ := processed_append hrest
      exact ⟨middle, .cons hcommit hgives hbefore, hafter⟩

variable {roomId : Uuid} {messages : List ControlMessage} {state state' : σ}

/-- After a batch the group is at the epoch of its last Commit. -/
theorem processed_epoch (hmls : MlsEpochs host epochOf groupOf)
    (h : Processed host roomId messages state state') :
    epochOf state' roomId = epochOf state roomId ∨
      ∃ m ∈ messages, epochOf state' roomId = m.epoch := by
  induction h with
  | nil state => exact Or.inl rfl
  | cons hcommit hgives _ ih =>
    rcases ih with ih | ⟨m, hm, ih⟩
    · exact Or.inr ⟨_, mem_cons_self, ih.trans (hmls.processCommit hgives).2.1⟩
    · exact Or.inr ⟨m, mem_cons_of_mem _ hm, ih⟩

variable {other : Uuid}

/-- Other groups are left where they were. -/
theorem processed_other (hmls : MlsEpochs host epochOf groupOf) (hne : other ≠ roomId)
    (h : Processed host roomId messages state state') :
    epochOf state' other = epochOf state other := by
  induction h with
  | nil state => rfl
  | cons _ hgives _ ih => exact ih.trans ((hmls.processCommit hgives).2.2 other hne)

theorem processed_commits (h : Processed host roomId messages state state') :
    ∀ m ∈ messages, m.contentType = .commit := by
  induction h with
  | nil state => exact forall_mem_nil _
  | cons hcommit _ _ ih => exact forall_mem_cons.2 ⟨hcommit, ih⟩

theorem welcomeIndex_spec {i : ℕ} {m : ControlMessage} (h : welcomeIndex messages = some i)
    (hm : messages[i]? = some m) :
    m.contentType = .welcome := by
  obtain ⟨_, hi, -⟩ := findIdx?_eq_some_iff_getElem.1 h
  obtain ⟨_, hget⟩ := List.getElem?_eq_some_iff.1 hm
  rw [hget] at hi
  exact of_decide_eq_true hi

variable {membershipRevision : ℕ} {draft draft' : GroupDraft σ}

/-- A draft leaves other groups where they were. -/
theorem drafted_other (hmls : MlsEpochs host epochOf groupOf) {roomId other : ℕ}
    (hne : other ≠ roomId) (h : Drafted host roomId membershipRevision draft draft') :
    epochOf draft'.1 other = epochOf draft.1 other := by
  induction h with
  | refl => rfl
  | tail _ hstep ih =>
    cases hstep with
    | removal hgives => exact ((hmls.removeMember hgives).2.2 other hne).trans ih
    | addition hgives => exact ((hmls.addMember hgives).2.2 other hne).trans ih

theorem drafted_subset {roomId : ℕ} (h : Drafted host roomId membershipRevision draft draft') :
    draft.2 ⊆ draft'.2 := by
  induction h with
  | refl => exact List.Subset.refl _
  | tail _ hstep ih =>
    cases hstep with
    | _ => exact List.Subset.trans ih (subset_append_left _ _)

/-- The first Commit of a draft opens the next epoch, with a new identifier. -/
theorem drafted_first (hmls : MlsEpochs host epochOf groupOf) {roomId : ℕ}
    (h : Drafted host roomId membershipRevision draft draft') :
    draft' = draft ∨ ∃ c ∈ draft'.2, c.contentType = .commit ∧
      c.epoch = epochOf draft.1 roomId + 1 ∧ host.Gives .newId (.ok c.id) := by
  rcases Relation.ReflTransGen.cases_head h with rfl | ⟨middle, hstep, hrest⟩
  · exact Or.inl rfl
  · refine Or.inr ?_
    have hsub := drafted_subset hrest
    cases hstep with
    | removal hgives hid =>
      exact ⟨_, hsub (mem_append_right _ (mem_singleton_self _)), rfl,
        (hmls.removeMember hgives).1, hid⟩
    | addition hgives hid =>
      exact ⟨_, hsub (mem_append_right _ mem_cons_self), rfl,
        (hmls.addMember hgives).1, hid⟩

/-- How many Commits there are among some controls. -/
def commitCount (controls : List PendingControl) : ℕ :=
  (controls.filter fun c => c.contentType = .commit).length

/-- The controls of a draft are beyond the epoch it began at, up to the one it leads to, one
Commit for each. -/
structure DraftEpochs (epochOf : σ → Uuid → ℕ) (room start : ℕ) (draft : GroupDraft σ) :
    Prop where
  count : epochOf draft.1 room = start + commitCount draft.2
  controls : ∀ c ∈ draft.2, start < c.epoch ∧ c.epoch ≤ epochOf draft.1 room
  last : ∀ last, draft.2.getLast? = some last → last.epoch = epochOf draft.1 room

/-- A draft with the controls of one more epoch. -/
theorem DraftEpochs.append {room start : ℕ} (h : DraftEpochs epochOf room start draft) {next : σ}
    {controls : List PendingControl} (hnext : epochOf next room = epochOf draft.1 room + 1)
    (hcontrols : ∀ c ∈ controls, c.epoch = epochOf next room) (hone : commitCount controls = 1) :
    DraftEpochs epochOf room start (next, draft.2 ++ controls) where
  count := by
    have hcount : commitCount (draft.2 ++ controls) = commitCount draft.2 + 1 := by
      rw [commitCount, filter_append, length_append, ← commitCount, ← commitCount, hone]
    have := h.count
    simp only [hcount]
    omega
  controls c hc := by
    have hstart := h.count
    simp only
    rcases mem_append.1 hc with hc | hc
    · have := h.controls c hc
      omega
    · have := hcontrols c hc
      omega
  last last hlast := by
    have hne : controls ≠ [] := by
      rintro rfl
      exact absurd hone (by decide)
    rw [getLast?_append_of_ne_nil _ hne] at hlast
    exact hcontrols last (mem_of_getLast? hlast)

variable (hmls : MlsEpochs host epochOf groupOf)

include hmls

theorem drafted_epochs {room revision : ℕ} {start : σ}
    (h : Drafted host room revision (start, []) draft) :
    DraftEpochs epochOf room (epochOf start room) draft := by
  induction h with
  | refl => exact ⟨rfl, forall_mem_nil _, nofun⟩
  | tail _ hstep ih =>
    cases hstep with
    | removal hgives _ =>
      obtain ⟨hnext, hnow, -⟩ := hmls.removeMember hgives
      exact ih.append (hnow.trans hnext) (forall_mem_singleton.2 hnow.symm) rfl
    | addition hgives _ =>
      obtain ⟨hnext, hnow, -⟩ := hmls.addMember hgives
      exact ih.append (hnow.trans hnext)
        (forall_mem_cons.2 ⟨hnow.symm, forall_mem_singleton.2 hnow.symm⟩) rfl

variable {joined : Bool}

/-- The batch of a page leads to an epoch of the page, or leaves the epoch alone. -/
theorem batched_epoch (h : Batched host roomId messages state state' joined)
    (hhere : ∀ m ∈ messages, m.contentType = .welcome → groupOf m.envelope = roomId) :
    epochOf state' roomId = epochOf state roomId ∨
      ∃ m ∈ messages, epochOf state' roomId = m.epoch := by
  cases h with
  | member hprocessed => exact processed_epoch hmls hprocessed
  | @welcome first welcome _ entered hindex hwelcome hcommit hjoin hrest =>
    have hmem := mem_of_getElem? hwelcome
    rcases processed_epoch hmls hrest with he | ⟨m, hm, he⟩
    · have hentered := (hmls.joinGroup hjoin).1
      rw [hhere welcome hmem (welcomeIndex_spec hindex hwelcome)] at hentered
      exact Or.inr ⟨welcome, hmem, he.trans hentered⟩
    · exact Or.inr ⟨m, mem_of_mem_drop hm, he⟩

/-- The batch of another room leaves the group alone. -/
theorem batched_other (hne : other ≠ roomId) (h : Batched host roomId messages state state' joined)
    (haway : ∀ m ∈ messages, m.contentType = .welcome → groupOf m.envelope ≠ other) :
    epochOf state' other = epochOf state other := by
  cases h with
  | member hprocessed => exact processed_other hmls hne hprocessed
  | @welcome first welcome _ entered hindex hwelcome hcommit hjoin hrest =>
    have hgroup := haway welcome (mem_of_getElem? hwelcome) (welcomeIndex_spec hindex hwelcome)
    exact (processed_other hmls hne hrest).trans ((hmls.joinGroup hjoin).2 other (Ne.symm hgroup))

omit hmls in
/-- A batch that is applied has a Commit in it. -/
theorem batched_commit (h : Batched host roomId messages state state' joined)
    (hne : messages ≠ []) :
    (lastCommitId (messages.map (·.pending))).isSome = true := by
  have hcommit : ∃ m ∈ messages, m.contentType = .commit := by
    cases h with
    | member hprocessed =>
      obtain ⟨m, hm⟩ := exists_mem_of_ne_nil messages hne
      exact ⟨m, hm, processed_commits hprocessed m hm⟩
    | welcome _ _ hcommit _ _ =>
      have hmem := mem_of_getLast? hcommit
      rw [mem_filter, decide_eq_true_eq] at hmem
      exact ⟨_, mem_of_mem_take hmem.1, hmem.2.1⟩
  obtain ⟨m, hm, hc⟩ := hcommit
  have hkept : m.pending ∈ (messages.map (·.pending)).filter
      fun item => decide (item.contentType = .commit) :=
    mem_filter.2 ⟨mem_map_of_mem hm, decide_eq_true hc⟩
  rw [lastCommitId, Option.isSome_map, getLast?_eq_some_getLast (ne_nil_of_mem hkept)]
  rfl

variable {change change' : Native.Change σ}

/-- A change of a group leaves other groups where they were. -/
theorem changed_other {room : Uuid} (hne : other ≠ room)
    (h : Native.Changed host room change change') :
    epochOf change'.1 other = epochOf change.1 other := by
  induction h with
  | refl => rfl
  | tail _ hstep ih =>
    cases hstep with
    | removal hgives => exact ((hmls.removeMember hgives).2.2 other hne).trans ih
    | addition hgives => exact ((hmls.addMember hgives).2.2 other hne).trans ih

/-- The first Commit of a change opens the next epoch, and the server has accepted it. -/
theorem changed_first {room : Uuid} (h : Native.Changed host room change change') :
    change' = change ∨ ∃ input : SubmitControlMessageInput, input.contentType = .commit ∧
      input.epoch = epochOf change.1 room + 1 ∧
      host.Gives (.api (.submitControlMessage room input)) (.ok ()) := by
  rcases Relation.ReflTransGen.cases_head h with rfl | ⟨middle, hstep, -⟩
  · exact Or.inl rfl
  · refine Or.inr ?_
    cases hstep with
    | removal hgives hcommit hepoch haccepted =>
      exact ⟨_, hcommit, hepoch.trans (hmls.removeMember hgives).1, haccepted⟩
    | addition hgives hcommit hepoch haccepted =>
      exact ⟨_, hcommit, hepoch.trans (hmls.addMember hgives).1, haccepted⟩

end

/-! ## Ceilings -/

/-- An epoch of a group, what is known of the profiles of a device that has not got beyond it,
and the places in the control messages it can have read up to.  `stale` are the identifiers of
controls that are not new any more. -/
structure Limit where
  bound : ℕ
  known : DeviceProfile → Prop
  reads : ℕ → Prop
  stale : Uuid → Prop

/-- No page that is listed to a device below the limit leads beyond it, and the server takes no
new Commit up to the epoch after it. -/
structure Ceiling (host : Host σ ρ) (epochOf : σ → Uuid → ℕ) (groupOf : Bytes → Uuid)
    (roomId : Uuid) (l : Limit) : Prop where
  commit : ∀ {p}, l.known p → ∀ room last, l.known (p.withCommit room last)
  elsewhereRead : ∀ {p room}, l.known p → roomId ≠ room → ∀ n, l.known (p.withCursor room n)
  read : ∀ {p n}, l.known p → l.reads n → ∀ last,
    l.known ((p.withCursor roomId n).withCommit roomId last)
  status : ∀ {p p' : DeviceProfile}, l.known p →
    p'.lastControlSequences = p.lastControlSequences →
    p'.lastCommitMessageIds = p.lastCommitMessageIds → l.known p'
  page : ∀ {p state state' messages last}, l.known p → epochOf state roomId ≤ l.bound →
    host.Gives (.api (.listControlMessages roomId p.deviceId (p.cursor roomId)
      controlPageLimit)) (.ok messages) → messages.getLast? = some last →
    Batched host roomId messages state state' (p.joined roomId) →
      l.reads last.sequenceNo ∧ epochOf state' roomId ≤ l.bound
  elsewhere : ∀ {room device after messages}, room ≠ roomId → host.Gives
    (.api (.listControlMessages room device after controlPageLimit)) (.ok messages) →
      ∀ m ∈ messages, m.contentType = .welcome → groupOf m.envelope ≠ roomId
  refused : ∀ {input}, host.Gives (.api (.submitControlMessage roomId input)) (.ok ()) →
    input.contentType = .commit → input.epoch ≤ l.bound + 1 → l.stale input.id
  fresh : ∀ {id}, host.Gives .newId (.ok id) → ¬ l.stale id

/-- A pending operation that does not lead beyond the limit. -/
structure OperationUnder (epochOf : σ → Uuid → ℕ) (roomId : Uuid) (l : Limit)
    (op : PendingOperation σ) : Prop where
  previous : ∀ state, op.previousState = some state → epochOf state roomId ≤ l.bound
  next : epochOf op.nextState roomId ≤ l.bound ∨ (op.kind = .bootstrap ∨ op.kind = .rekey) ∧
    op.roomId = roomId ∧
    ∃ c ∈ op.controls, c.contentType = .commit ∧ c.epoch ≤ l.bound + 1 ∧ ¬ l.stale c.id
  inbound : op.kind = .inbound → op.roomId = roomId → ∃ n,
    (op.controls.getLast?.bind (·.sequenceNo)) = some n ∧ l.reads n ∧
    (lastCommitId op.controls).isSome = true

/-- The device is not beyond the limit. -/
structure Under (epochOf : σ → Uuid → ℕ) (roomId : Uuid) (l : Limit) (s : DeviceStore σ) :
    Prop where
  state : ∃ state, s.state = some state ∧ epochOf state roomId ≤ l.bound
  profile : ∃ p, s.profile = some p ∧ l.known p
  pending : ∀ op, s.pending = some op → OperationUnder epochOf roomId l op

/-- A device of a native client is not beyond the limit, and will not be when it has sent the
message it keeps. -/
structure NativeUnder (epochOf : σ → Uuid → ℕ) (roomId : Uuid) (l : Limit)
    (s : DeviceStore σ) : Prop extends Under epochOf roomId l s where
  application : ∀ application, s.pendingApplication = some application →
    epochOf application.nextState roomId ≤ l.bound

section

variable {host : Host σ ρ} {epochOf : σ → Uuid → ℕ} {groupOf : Bytes → Uuid} {roomId : Uuid}
  {l : Limit} {s : DeviceStore σ}

theorem Under.write (h : Under epochOf roomId l s) {next : σ}
    (hnext : epochOf next roomId ≤ l.bound) :
    Under epochOf roomId l { s with state := some next } :=
  { h with state := ⟨next, rfl, hnext⟩ }

theorem Under.writeProfile (h : Under epochOf roomId l s) {p : DeviceProfile}
    (hp : l.known p) : Under epochOf roomId l { s with profile := some p } :=
  { h with profile := ⟨p, rfl, hp⟩ }

theorem Under.writePending (h : Under epochOf roomId l s) {op : PendingOperation σ}
    (hop : OperationUnder epochOf roomId l op) :
    Under epochOf roomId l { s with pending := some op } :=
  { h with pending := fun _ hop' => Option.some.inj hop' ▸ hop }

theorem NativeUnder.writeMetadata (h : NativeUnder epochOf roomId l s)
    {metadata : DirectMessageMetadata σ}
    (hm : ∀ pending, metadata.pendingApplication = some pending →
      epochOf pending.nextState roomId ≤ l.bound) :
    NativeUnder epochOf roomId l { s with metadata := some metadata } where
  state := h.state
  profile := h.profile
  pending := h.pending
  application := hm

/-- What is only read leaves a device where it is, -/
theorem Under.inert {e : StorageEffect σ} (h : Under epochOf roomId l s) (he : e.Inert) :
    Under epochOf roomId l (s.perform e).2 := by
  cases e with
  | writeRecords records => exact { state := h.state, profile := h.profile, pending := h.pending }
  | read | readDeviceProfile | readPendingOperation | readRecords | readMetadata => exact h
  | _ => cases he

namespace Ceiling

variable (c : Ceiling host epochOf groupOf roomId l)

include c

variable (hmls : MlsEpochs host epochOf groupOf)

include hmls

/-- and so does what `ensureReady` sets up. -/
theorem lifecycle {e : StorageEffect σ} (h : Under epochOf roomId l s)
    (he : LifecycleWrite host s e) : Under epochOf roomId l (s.perform e).2 := by
  obtain ⟨state, hstate, hepoch⟩ := h.state
  obtain ⟨p, hp, hknown⟩ := h.profile
  cases he with
  | newProfile hnone | newState hnone => cases hnone.symm.trans hstate
  | @status q p' hq hsequences hcommits =>
    cases hq.symm.trans hp
    exact h.writeProfile (c.status hknown hsequences hcommits)
  | @keyPackage start generated hstart hgives =>
    cases hstart.symm.trans hstate
    exact h.write (hmls.generateKeyPackage hgives roomId ▸ hepoch)

variable {op : PendingOperation σ}

omit hmls in
/-- A completed operation is none that leads beyond the limit. -/
theorem next_le (hop : OperationUnder epochOf roomId l op)
    (hdone : op.kind = .bootstrap ∨ op.kind = .rekey → Accepted host op op.controls) :
    epochOf op.nextState roomId ≤ l.bound := by
  rcases hop.next with h | ⟨hkind, hroom, control, hmem, hcommit, hepoch, hfresh⟩
  · exact h
  · have haccepted := hdone hkind control hmem
    rw [hroom] at haccepted
    exact absurd (c.refused haccepted hcommit hepoch) hfresh

/-- The operation of a change of a group from a state below the limit. -/
theorem drafted {room membershipRevision : ℕ} {start : σ} {draft : GroupDraft σ}
    (hstart : epochOf start roomId ≤ l.bound)
    (h : Drafted host room membershipRevision (start, []) draft) :
    epochOf draft.1 roomId ≤ l.bound ∨ room = roomId ∧ ∃ control ∈ draft.2,
      control.contentType = .commit ∧ control.epoch ≤ l.bound + 1 ∧ ¬ l.stale control.id := by
  by_cases hroom : room = roomId
  · subst hroom
    rcases drafted_first hmls h with rfl | ⟨control, hmem, hcommit, hepoch, hid⟩
    · exact Or.inl hstart
    · exact Or.inr ⟨rfl, control, hmem, hcommit, hepoch.trans_le (Nat.succ_le_succ hstart),
        c.fresh hid⟩
  · left
    rw [drafted_other hmls (Ne.symm hroom) h]
    exact hstart

omit c in
/-- A group that has just been created is below the limit, and so are the others. -/
theorem created {room : Uuid} {start created : σ}
    (hcreated : host.Gives (.core (.createGroup start room)) (.ok created))
    (hstart : epochOf start roomId ≤ l.bound) : epochOf created roomId ≤ l.bound := by
  by_cases hroom : roomId = room
  · subst hroom
    rw [(hmls.createGroup hcreated).2.1]
    exact Nat.zero_le _
  · rw [(hmls.createGroup hcreated).2.2 _ hroom]
    exact hstart

/-- A batch leads nowhere beyond the limit. -/
theorem batched {p : DeviceProfile} {room : Uuid} {start next : σ} {messages : List ControlMessage}
    {last : ControlMessage} (hp : l.known p) (hstart : epochOf start roomId ≤ l.bound)
    (hlist : host.Gives (.api (.listControlMessages room p.deviceId (p.cursor room)
      controlPageLimit)) (.ok messages)) (hlast : messages.getLast? = some last)
    (hbatch : Batched host room messages start next (p.joined room)) :
    epochOf next roomId ≤ l.bound ∧ (room = roomId → l.reads last.sequenceNo) := by
  by_cases hroom : room = roomId
  · subst hroom
    exact ⟨(c.page hp hstart hlist hlast hbatch).2, fun _ =>
      (c.page hp hstart hlist hlast hbatch).1⟩
  · have hother : epochOf next roomId = epochOf start roomId :=
      batched_other hmls (Ne.symm hroom) hbatch (c.elsewhere hroom hlist)
    exact ⟨hother.trans_le hstart, fun h => absurd h hroom⟩

omit hmls in
/-- The profile after the controls of a page, or of another room. -/
theorem inboundProfile {p : DeviceProfile} {n : ℕ} (h : l.known p)
    (hop : OperationUnder epochOf roomId l op) (hkind : op.kind = .inbound)
    (hlast : (op.controls.getLast?.bind (·.sequenceNo)) = some n) :
    l.known (RedcodeIm.inboundProfile op p n) := by
  by_cases hroom : op.roomId = roomId
  · obtain ⟨n', hn', hreads, hcommit⟩ := hop.inbound hkind hroom
    cases hn'.symm.trans hlast
    obtain ⟨last, hc⟩ := Option.isSome_iff_exists.1 hcommit
    subst hroom
    rw [RedcodeIm.inboundProfile, hc]
    exact c.read h hreads last
  · have hcursor := c.elsewhereRead h (Ne.symm hroom) n
    unfold RedcodeIm.inboundProfile
    split
    · exact c.commit hcursor _ _
    · exact hcursor

/-- **The step lemma**: what the coordinator writes leaves the device below the limit. -/
theorem keeps {e : StorageEffect σ} (h : Under epochOf roomId l s) (he : Permitted host s e) :
    Under epochOf roomId l (s.perform e).2 := by
  obtain ⟨state, hstate, hepoch⟩ := h.state
  obtain ⟨p, hp, hknown⟩ := h.profile
  cases he with
  | inert he => exact h.inert he
  | lifecycle he => exact c.lifecycle hmls h he
  | finishGroup hop hkind haccepted =>
    exact h.write (c.next_le (h.pending _ hop) fun _ => haccepted)
  | @finishCommit op q last hop hkind haccepted hq hlast =>
    cases hq.symm.trans hp
    exact h.writeProfile (c.commit hknown op.roomId last)
  | restore hop hkind hprevious => exact h.write ((h.pending _ hop).previous _ hprevious)
  | finishInbound hop hkind | finishApplication hop hkind =>
    exact h.write (c.next_le (h.pending _ hop) fun h => by simp [hkind] at h)
  | @finishCursor op q n hop hkind hq hlast =>
    cases hq.symm.trans hp
    exact h.writeProfile (c.inboundProfile hknown (h.pending _ hop) hkind hlast)
  | empty hop => exact { h with pending := fun _ hop' => by cases hop' }
  | @rekey q start draft room _ _ hnone hq hstart hjoined hdraft hne =>
    cases hstart.symm.trans hstate
    refine h.writePending ⟨fun previous hprevious => ?_, ?_, nofun⟩
    · cases hprevious
      exact hepoch
    · exact (c.drafted hmls hepoch hdraft).imp_right fun h => ⟨Or.inr rfl, h⟩
  | @bootstrap q start created draft room _ _ hnone hq hstart hcreated hdraft =>
    cases hstart.symm.trans hstate
    refine h.writePending ⟨nofun, ?_, nofun⟩
    exact (c.drafted hmls (Ceiling.created hmls hcreated hepoch) hdraft).imp_right
      fun h => ⟨Or.inl rfl, h⟩
  | @inbound q start next room messages last hnone hq hstart hlist hlast hbatch =>
    cases hq.symm.trans hp
    cases hstart.symm.trans hstate
    obtain ⟨hnext, hreads⟩ := c.batched hmls hknown hepoch hlist hlast hbatch
    refine h.writePending ⟨nofun, Or.inl hnext, fun _ hroom =>
      ⟨last.sequenceNo, ?_, hreads hroom, ?_⟩⟩
    · simp [inboundOperation, getLast?_map, hlast, ControlMessage.pending]
    · refine batched_commit hbatch ?_
      rintro rfl
      cases hlast
  | @application q start room key commitId payload encrypted hnone hq hstart hcommit hgives =>
    cases hstart.symm.trans hstate
    exact h.writePending ⟨nofun, Or.inl (hmls.encrypt hgives roomId ▸ hepoch), nofun⟩
  | @decrypted start room ciphertext decrypted hnone hstart hgives =>
    cases hstart.symm.trans hstate
    exact h.write (hmls.decrypt hgives roomId ▸ hepoch)

/-- **The run lemma**: no sequence of calls, wherever each of them stops, gets the device beyond
the limit. -/
theorem holds {accountId : Uuid} {w w' : World σ ρ} (h : Under epochOf roomId l w.device)
    (hvisits : Visits host accountId w w') : Under epochOf roomId l w'.device :=
  hvisits.holds (fun _ _ hs he => c.keeps hmls hs he) h

/-! ## The native clients -/

/-- A change that the server has accepted is one of another room. -/
theorem changed (hnew : ∀ id, ¬ l.stale id) {room : Uuid} {start : σ} {change : Native.Change σ}
    (hstart : epochOf start roomId ≤ l.bound) (h : Native.Changed host room (start, none) change)
    (hsome : change.2 ≠ none) : epochOf change.1 roomId ≤ l.bound := by
  by_cases hroom : roomId = room
  · subst hroom
    rcases changed_first hmls h with rfl | ⟨input, hcommit, hepoch, haccepted⟩
    · exact absurd rfl hsome
    · have hfirst : input.epoch = epochOf start roomId + 1 := hepoch
      exact absurd (c.refused haccepted hcommit (by omega)) (hnew _)
  · rw [changed_other hmls hroom h]
    exact hstart

/-- The writes of a native coordinator leave the device below the limit. -/
theorem keepsNative (hnew : ∀ id, ¬ l.stale id) :
    Native.Upholds host (fun state => epochOf state roomId ≤ l.bound) l.known
      (NativeUnder epochOf roomId l) where
  states h hstate := by
    obtain ⟨state, hstate', hepoch⟩ := h.state
    exact Option.some.inj (hstate'.symm.trans hstate) ▸ hepoch
  profiles h hp := by
    obtain ⟨p, hp', hknown⟩ := h.profile
    exact Option.some.inj (hp'.symm.trans hp) ▸ hknown
  keeps {s e} h he := by
    obtain ⟨state, hstate, hepoch⟩ := h.state
    have hnow : ∀ start, s.state = some start → epochOf start roomId ≤ l.bound :=
      fun start hstart => Option.some.inj (hstate.symm.trans hstart) ▸ hepoch
    have hwrite : ∀ {next : σ}, epochOf next roomId ≤ l.bound →
        NativeUnder epochOf roomId l { s with state := some next } :=
      fun hnext => ⟨h.toUnder.write hnext, h.application⟩
    have hwriteProfile : ∀ {p : DeviceProfile}, l.known p →
        NativeUnder epochOf roomId l { s with profile := some p } :=
      fun hp => ⟨h.toUnder.writeProfile hp, h.application⟩
    cases he with
    | inert he =>
      refine ⟨h.toUnder.inert he, ?_⟩
      rw [DeviceStore.pendingApplication, he.metadata]
      exact h.application
    | lifecycle he =>
      refine ⟨c.lifecycle hmls h.toUnder he, ?_⟩
      rw [DeviceStore.pendingApplication, he.metadata]
      exact h.application
    | group hstart hchanged hsome =>
      exact hwrite (c.changed hmls hnew (hnow _ hstart) hchanged hsome)
    | created hstart hcreated hchanged hsome =>
      exact hwrite (c.changed hmls hnew (Ceiling.created hmls hcreated (hnow _ hstart))
        hchanged hsome)
    | commit hp => exact hwriteProfile (c.commit hp _ _)
    | controls hstart hp hlist hlast hbatch =>
      exact hwrite (c.batched hmls hp (hnow _ hstart) hlist hlast hbatch).1
    | @cursor p start next room commitId messages last hseen hp hlist hlast hbatch =>
      have hreads := (c.batched hmls hp hseen hlist hlast hbatch).2
      by_cases hroom : room = roomId
      · subst hroom
        exact hwriteProfile (c.read hp (hreads rfl) commitId)
      · exact hwriteProfile (c.commit (c.elsewhereRead hp (Ne.symm hroom) _) _ _)
    | sent hpending => exact hwrite (h.application _ hpending)
    | cleared hpending hsent hm => exact h.writeMetadata fun _ hp => by cases hm.symm.trans hp
    | @kept metadata pending start payload encrypted hnone hstart hgives hnext hm =>
      refine h.writeMetadata fun pending' hp => ?_
      cases hm.symm.trans hp
      rw [hnext, hmls.encrypt hgives roomId]
      exact hnow _ hstart
    | decrypted hstart hgives => exact hwrite (hmls.decrypt hgives roomId ▸ hnow _ hstart)
    | metadata hm => exact h.writeMetadata fun pending hp => h.application _ (hm.symm.trans hp)

/-- **The run lemma** for the native clients. -/
theorem holdsNative (hnew : ∀ id, ¬ l.stale id) {condition : World σ ρ → Effect σ → Prop}
    {platform : Platform} {accountId : Uuid} {w w' : World σ ρ}
    (h : NativeUnder epochOf roomId l w.device)
    (hvisits : NativeVisits host condition platform accountId w w') :
    NativeUnder epochOf roomId l w'.device :=
  hvisits.upheld (c.keepsNative hmls hnew) h

end Ceiling

end

end RedcodeIm
