import RedcodeIm.Coordinator.Ceiling
import RedcodeIm.Lib.CursorFeed

/-!
# Whether synchronisation ends

`syncControls`, `reconcileGroup` and `resumePending` call one another with no measure of their
own.  Here the servers may do anything at first, but show the same state of every room from
some answer on.

* `Shows`, `Settles` — the rooms as they are shown in the end, and how many answers it takes.
* `Overtakes` — the plan of a rekey that goes beyond the epoch of its room.
* `syncControls_ends` — where every plan does, some fuel is enough for every run.
* `sync_terminates` — so synchronisation ends.
* `sync_left_behind` — and it does not for a device that is behind.
-/

namespace RedcodeIm

open Awaiting Action CursorFeed Outcome

variable {σ ρ : Type}

/-! ## The servers -/

/-- A room, as the servers show it: the epoch with the status, and the control messages. -/
structure RoomView where
  epoch : RoomEpoch
  log : List ControlMessage

/-- Where `fixed` holds, the servers show the same state of every room from then on.  The
member devices may go on changing. -/
structure Shows (host : Host σ ρ) (rooms : Uuid → RoomView) (fixed : ρ → Prop) : Prop where
  stays : ∀ {h e r h'}, fixed h → host h e r h' → fixed h'
  epoch : ∀ {h room epoch h'}, fixed h → host h (.api (.getRoomEpoch room)) (.ok epoch) h' →
    epoch = (rooms room).epoch
  log : ∀ {h room device after messages h'}, fixed h →
    host h (.api (.listControlMessages room device after controlPageLimit)) (.ok messages) h' →
      messages = pageAfter ControlMessage.sequenceNo (rooms room).log after controlPageLimit

/-- It takes a number of answers at most until the rooms are fixed. -/
inductive Settles (host : Host σ ρ) (fixed : ρ → Prop) : ℕ → ρ → Prop where
  | now {n : ℕ} {h : ρ} (hfixed : fixed h) : Settles host fixed n h
  | later {n : ℕ} {h : ρ} (hnext : ∀ e r h', host h e r h' → Settles host fixed n h') :
      Settles host fixed (n + 1) h

section

variable {host : Host σ ρ} {rooms : Uuid → RoomView} {fixed : ρ → Prop}

theorem Settles.mono {n m : ℕ} {h : ρ} (hs : Settles host fixed n h) (hle : n ≤ m) :
    Settles host fixed m h := by
  induction hs generalizing m with
  | now hfixed => exact .now hfixed
  | later _ ih =>
    obtain ⟨m, rfl⟩ := Nat.exists_eq_add_of_le' (Nat.pos_of_ne_zero (by omega : m ≠ 0))
    exact .later fun e r h' hr => ih e r h' hr (by omega)

/-- An answer brings the end nearer. -/
theorem Settles.next (hshows : Shows host rooms fixed) {n : ℕ} {h h' : ρ} {e : RemoteEffect σ}
    {r : Answer e} (hs : Settles host fixed (n + 1) h) (hr : host h e r h') :
    Settles host fixed n h' := by
  cases hs with
  | now hfixed => exact .now (hshows.stays hfixed hr)
  | later hnext => exact hnext e r h' hr

theorem Settles.step (hshows : Shows host rooms fixed) {n : ℕ} {h h' : ρ} {e : RemoteEffect σ}
    {r : Answer e} (hs : Settles host fixed n h) (hr : host h e r h') :
    Settles host fixed n h' :=
  (hs.mono n.le_succ).next hshows hr

theorem Settles.zero {h : ρ} (hs : Settles host fixed 0 h) : fixed h := by
  cases hs with
  | now hfixed => exact hfixed

end

/-! ## Plans -/

/-- From the time the rooms are fixed, a rekey that is planned goes beyond the epoch its room
is shown at: the stored group is at an epoch from which the Commits of the plan lead there. -/
def Overtakes (epochOf : σ → Uuid → ℕ) (rooms : Uuid → RoomView) (fixed : ρ → Prop)
    (w : World σ ρ) : Effect σ → Prop
  | .storage (.writePendingOperation op) => op.kind = .rekey → fixed w.host →
    ∀ state, w.device.state = some state →
      (rooms op.roomId).epoch.activeEpoch < epochOf state op.roomId + commitCount op.controls
  | _ => True

/-! ## Programs that do not recur -/

theorem unspent_store (e : StorageEffect σ) : Unspent (store e) := unspent_perform _

theorem unspent_remote (e : RemoteEffect σ) : Unspent (remote e) := unspent_perform _

theorem unspent_safeEpoch (epoch : ℕ) : Unspent (safeEpoch epoch : Act σ ℕ) := by
  rw [safeEpoch]
  split <;> trivial

theorem unspent_required {α : Type} (o : Option α) : Unspent (required o : Act σ α) := by
  cases o <;> trivial

theorem unspent_requiredProfile : Unspent (requiredProfile : Act σ DeviceProfile) := by
  refine (unspent_store _).bind fun profile => ?_
  cases profile <;> trivial

theorem unspent_submitControls (op : PendingOperation σ) :
    ∀ controls, Unspent (submitControls op controls)
  | [] => trivial
  | _ :: rest => (unspent_remote _).bind fun _ => unspent_submitControls op rest

theorem unspent_consumeControls (op : PendingOperation σ) :
    ∀ controls, Unspent (consumeControls op controls)
  | [] => trivial
  | _ :: rest => (unspent_remote _).bind fun _ => unspent_consumeControls op rest

variable (op : PendingOperation σ)

theorem unspent_resumeBootstrap : Unspent (resumeBootstrap op) :=
  (unspent_submitControls op _).bind fun _ => unspent_requiredProfile.bind fun _ =>
    (unspent_required _).bind fun _ => (unspent_store _).bind fun _ =>
      (unspent_store _).bind fun _ => unspent_store _

variable (p : DeviceProfile)

theorem unspent_finishRekey : Unspent (finishRekey op p) :=
  (unspent_store _).bind fun _ => (unspent_required _).bind fun _ =>
    (unspent_store _).bind fun _ => unspent_store _

theorem unspent_resumeInbound : Unspent (resumeInbound op) :=
  unspent_requiredProfile.bind fun _ => (unspent_store _).bind fun _ =>
    (unspent_required _).bind fun _ => (unspent_store _).bind fun _ =>
      (unspent_consumeControls op _).bind fun _ => unspent_store _

theorem unspent_draftRemoval (roomId revision : ℕ) (draft : GroupDraft σ) (identity : Leaf) :
    Unspent (draftRemoval roomId revision draft identity) := by
  refine (unspent_remote _).attempt.bind fun r => ?_
  cases r with
  | error err => cases err <;> trivial
  | ok removed => exact (unspent_remote _).bind fun _ => (unspent_safeEpoch _).bind fun _ => trivial

theorem unspent_draftAddition (roomId sender revision : ℕ) (draft : GroupDraft σ)
    (deviceId : Uuid) : Unspent (draftAddition roomId sender revision draft deviceId) :=
  (unspent_remote _).bind fun _ => (unspent_remote _).bind fun _ =>
    (unspent_safeEpoch _).bind fun _ => (unspent_remote _).bind fun _ =>
      (unspent_remote _).bind fun _ => trivial

theorem unspent_localGroupMembers (state : σ) (roomId : Uuid) :
    Unspent (localGroupMembers state roomId) := by
  refine (unspent_remote _).attempt.bind fun r => ?_
  cases r <;> trivial

theorem unspent_processCommits (roomId : Uuid) :
    ∀ (messages : List ControlMessage) (state : σ), Unspent (processCommits roomId messages state)
  | [], _ => trivial
  | message :: rest, state => by
    rw [processCommits]
    split
    case isFalse => trivial
    case isTrue =>
      refine (unspent_remote _).bind fun result => (unspent_safeEpoch _).bind fun epoch => ?_
      split
      · exact unspent_processCommits roomId rest _
      · trivial

theorem unspent_applyControlBatch (state : σ) (roomId : Uuid) (messages : List ControlMessage) :
    Unspent (applyControlBatch p state roomId messages) := by
  rw [applyControlBatch]
  split
  case isTrue => exact (unspent_processCommits roomId messages state).bind fun _ => trivial
  case isFalse =>
    split
    case h_1 => trivial
    case h_2 index _ =>
      refine (unspent_required _).bind fun welcome => Unspent.bind ?_ fun _ => trivial
      rw [joinWithBatch]
      split
      case h_1 => trivial
      case h_2 =>
        refine (unspent_remote _).bind fun result => (unspent_safeEpoch _).bind fun epoch => ?_
        split
        · exact unspent_processCommits roomId _ _
        · trivial

theorem unspent_ensureMaterial (accountId : Uuid) (deviceLabel : String) :
    Unspent (ensureMaterial accountId deviceLabel : Act σ _) := by
  refine (unspent_store _).bind fun state => (unspent_store _).bind fun stored => ?_
  split
  · trivial
  · exact (unspent_remote _).bind fun _ => trivial
  · split
    · trivial
    · refine Unspent.bind ?_ fun _ => Unspent.bind ?_ fun profile => ?_
      · refine (unspent_remote _).attempt.bind fun r => ?_
        split <;> trivial
      · cases stored with
        | none => exact (unspent_remote _).bind fun _ => trivial
        | some profile => trivial
      · exact (unspent_store _).bind fun _ => (unspent_remote _).bind fun _ =>
          (unspent_store _).bind fun _ => trivial

theorem unspent_ensureRegistered (material : RegistrationMaterial) :
    Unspent (ensureRegistered p material : Act σ _) := by
  rw [ensureRegistered]
  split
  · trivial
  · exact (unspent_remote _).bind fun _ => (unspent_store _).bind fun _ => trivial

theorem unspent_ensureApproved : Unspent (ensureApproved p : Act σ _) := by
  rw [ensureApproved]
  split
  · refine (unspent_remote _).bind fun devices => ?_
    split
    · exact (unspent_store _).bind fun _ => trivial
    · trivial
  · trivial

theorem unspent_ensurePublished (state : σ) : Unspent (ensurePublished p state) := by
  rw [ensurePublished]
  split
  · exact (unspent_remote _).bind fun _ => (unspent_store _).bind fun _ =>
      (unspent_remote _).bind fun _ => (unspent_store _).bind fun _ => trivial
  · trivial

theorem unspent_ensureReady (accountId : Uuid) (deviceLabel : String) :
    Unspent (ensureReady accountId deviceLabel : Act σ _) := by
  refine (unspent_ensureMaterial _ _).bind fun material =>
    (unspent_ensureRegistered _ _).bind fun profile => ?_
  split
  · trivial
  · exact (unspent_ensureApproved _).bind fun _ => unspent_ensurePublished _ _

/-! ## Ends -/

/-- A program, run from a world with the condition met at each step, ends in `Q`. -/
abbrev Comes {α : Type} (host : Host σ ρ) (C : World σ ρ → Effect σ → Prop)
    (Q : Outcome (clientEffects σ) α → World σ ρ → Prop) (p : Act σ α) (w : World σ ρ) : Prop :=
  Always (host.env.guard C) (fun _ _ => True) Q p w

/-- The host has come from one state to another. -/
def Since (host : Host σ ρ) (h h' : ρ) : Prop := ∀ I, Stable host I → I h → I h'

theorem Since.stable {host : Host σ ρ} (h : ρ) : Stable host (Since host h) :=
  fun _ _ _ _ hsince hr I hstable hI => hstable (hsince I hstable hI) hr

/-- It does not run out of fuel, and the host is left as `I` says. -/
abbrev Ending {α : Type} (I : ρ → Prop) (o : Outcome (clientEffects σ) α) (w : World σ ρ) : Prop :=
  o ≠ .spent ∧ I w.host

section

variable {host : Host σ ρ} {C : World σ ρ → Effect σ → Prop} {I J : ρ → Prop} {α : Type}
  {Q : Outcome (clientEffects σ) α → World σ ρ → Prop} {w : World σ ρ}

theorem ending_done {a : α} (h : I w.host) : Ending I (.done a : Outcome (clientEffects σ) α) w :=
  ⟨done_ne_spent (S := clientEffects σ) a, h⟩

theorem ending_fail {err : ClientError} (h : I w.host) :
    Ending I (.fail err : Outcome (clientEffects σ) α) w :=
  ⟨fail_ne_spent (S := clientEffects σ) err, h⟩

theorem comes_store_bind {e : StorageEffect σ} {f : e.Reply → Act σ α}
    (h : C w (.storage e) → Comes host C Q (f (w.device.perform e).1)
      { w with device := (w.device.perform e).2 }) : Comes host C Q (store e >>= f) w := by
  refine always_perform_bind.2 ⟨trivial, ?_⟩
  rintro r w' ⟨hcondition, rfl, rfl⟩
  exact h hcondition

theorem comes_remote_bind {e : RemoteEffect σ} {f : e.Reply → Act σ α}
    (hfail : ∀ err h, host w.host e (.error err) h → Q (.fail err) { w with host := h })
    (hok : ∀ a h, host w.host e (.ok a) h → Comes host C Q (f a) { w with host := h }) :
    Comes host C Q (remote e >>= f) w := by
  refine always_perform_bind.2 ⟨trivial, ?_⟩
  rintro r w' ⟨-, h, hr, rfl⟩
  cases r with
  | ok a => exact hok a h hr
  | error err => exact hfail err h hr

variable {p : Act σ α}

theorem comes_of_keeps (h : Keeps host Q p w) : Comes host C Q p w :=
  (h.mono_env fun _ _ _ _ he => he.2).mono (fun _ _ _ => trivial) fun _ _ hQ => hQ

theorem comes_and {Q' : Outcome (clientEffects σ) α → World σ ρ → Prop} (h : Comes host C Q p w)
    (h' : Comes host C Q' p w) :
    Comes host C (fun o w' => Q o w' ∧ Q' o w') p w :=
  (h.and h').mono (fun _ _ _ => trivial) fun _ _ hQ => hQ

theorem ends_of_unspent (hu : Unspent p) (hstable : Stable host I) (hI : I w.host) :
    Comes host C (Ending I) p w := by
  refine (hu.always.invariant (I := fun w => I w.host) (fun w e r w' hw _ he => ?_) hI).mono
    (fun _ _ _ => trivial) fun _ _ h => ⟨h.2, h.1⟩
  cases e with
  | storage e =>
    obtain ⟨-, -, rfl⟩ := he
    exact hw
  | remote e =>
    obtain ⟨-, h, hr, rfl⟩ := he
    exact hstable hw hr

variable {sync : String → Uuid → Act σ Unit} {op : PendingOperation σ}

/-- A rekey ends, where the synchronisation after it is taken back does. -/
theorem resumeRekey_ends (hstable : Stable host I)
    (hJI : ∀ h, J h → I h)
    (hback : ∀ {h latest h' last}, I h →
      host h (.api (.getRoomEpoch op.roomId)) (.ok latest) h' →
      op.controls.getLast? = some last → last.epoch ≤ latest.activeEpoch → J h')
    (hsync : ∀ label (w' : World σ ρ), w'.device.pending = none → J w'.host →
      Comes host C (Ending J) (sync label op.roomId) w') (hI : I w.host) :
    Comes host C (Ending I) (resumeRekey sync op) w := by
  refine (ends_of_unspent unspent_requiredProfile hstable hI).bind (fun p w₁ h₁ => ?_)
    (fun _ _ h => ending_fail h.2) (fun _ h => absurd rfl h.1)
  cases hlast : op.controls.getLast? with
  | none => exact ending_fail h₁.2
  | some last =>
    refine (ends_of_unspent (unspent_submitControls op op.controls).attempt hstable h₁.2).bind
      (fun submitted w₂ h₂ => ?_) (fun _ _ h => ending_fail h.2) (fun _ h => absurd rfl h.1)
    cases submitted with
    | ok _ => exact ends_of_unspent (unspent_finishRekey op p) hstable h₂.2
    | error err =>
      refine comes_remote_bind (fun _ _ hr => ending_fail (hstable h₂.2 hr)) fun latest h hr => ?_
      split
      case isFalse => exact ending_fail (hstable h₂.2 hr)
      case isTrue hle =>
        have hJ : J h := hback h₂.2 hr hlast hle
        cases op.previousState with
        | none => exact ending_fail (hJI h hJ)
        | some previous =>
          refine comes_store_bind fun _ => comes_store_bind fun _ => ?_
          exact (hsync _ _ rfl hJ).imp fun _ _ h => ⟨h.1, hJI _ h.2⟩

/-- So does everything else that can be pending. -/
theorem resumePending_ends (hkeeps : Syncs host sync)
    (hstable : Stable host I) (hI : I w.host)
    (hrekey : ∀ op, w.device.pending = some op → op.kind = .rekey →
      Comes host C (Ending I) (resumeRekey sync op) w) :
    Comes host C (fun o w' => Ending I o w' ∧ Emptied o w') (resumePending sync false) w := by
  refine comes_and ?_ (comes_of_keeps (resumePending_spec hkeeps false))
  have hthen : ∀ {p : Act σ Unit}, Comes host C (Ending I) p w →
      Comes host C (Ending I) (p >>= fun _ => pure (none : Option Uuid)) w := fun hp =>
    hp.bind (fun _ _ h => ending_done h.2) (fun _ _ h => ending_fail h.2)
      (fun _ h => absurd rfl h.1)
  refine comes_store_bind fun _ => ?_
  cases hpending : w.device.pending with
  | none =>
    simp only [DeviceStore.perform, hpending]
    exact ending_done hI
  | some op =>
    simp only [DeviceStore.perform, hpending]
    cases hkind : op.kind with
    | bootstrap => exact hthen (ends_of_unspent (unspent_resumeBootstrap op) hstable hI)
    | rekey => exact hthen (hrekey op hpending hkind)
    | inbound => exact hthen (ends_of_unspent (unspent_resumeInbound op) hstable hI)
    | application => exact ending_fail hI

theorem comes_storedContext_bind {f : DeviceProfile × σ → Act σ α}
    (hfail : ∀ err, Q (.fail err) w)
    (hsome : ∀ p state, w.device.profile = some p → w.device.state = some state →
      Comes host C Q (f (p, state)) w) : Comes host C Q (storedContext >>= f) w := by
  rw [storedContext, requiredProfile, bind_assoc, bind_assoc]
  refine comes_store_bind fun _ => ?_
  cases hp : w.device.profile with
  | none =>
    simp only [DeviceStore.perform, hp]
    exact hfail _
  | some p =>
    simp only [DeviceStore.perform, hp, pure_eq, done_bind, bind_assoc]
    refine comes_store_bind fun _ => ?_
    cases hstate : w.device.state with
    | none =>
      simp only [DeviceStore.perform, hstate]
      exact hfail _
    | some state =>
      simp only [DeviceStore.perform, hstate]
      exact hsome p state hp hstate

/-- The host is left as it was found. -/
theorem comes_ending (h : Comes host C (fun o _ => o ≠ .spent) p w) (hstable : Stable host I)
    (hI : I w.host) : Comes host C (Ending I) p w := by
  refine (h.invariant (I := fun w => I w.host) (fun w e r w' hw _ he => ?_) hI).mono
    (fun _ _ _ => trivial) fun _ _ h => ⟨h.2, h.1⟩
  cases e with
  | storage e =>
    obtain ⟨-, -, rfl⟩ := he
    exact hw
  | remote e =>
    obtain ⟨-, h, hr, rfl⟩ := he
    exact hstable hw hr

end

section

variable {host : Host σ ρ} {epochOf : σ → Uuid → ℕ} {groupOf : Bytes → Uuid}
  {rooms : Uuid → RoomView} {fixed : ρ → Prop} {sync : String → Uuid → Act σ Unit}
  {roomId : Uuid} {w : World σ ρ} {n : ℕ}

variable {p : DeviceProfile}

/-- The plan of a rekey is made and submitted; where it is taken back, an answer has brought the
end nearer. -/
theorem rekeyGroup_ends (hmls : MlsEpochs host epochOf groupOf) (hshows : Shows host rooms fixed)
    (hkeeps : Syncs host sync)
    (hsync : ∀ m, m + 1 = n → ∀ label (w' : World σ ρ), w'.device.pending = none →
      Settles host fixed m w'.host → Comes host (Overtakes epochOf rooms fixed)
        (Ending (Settles host fixed m)) (sync label roomId) w') {epoch : RoomEpoch} {state : σ}
    (hstate : w.device.state = some state) (hn : Settles host fixed n w.host) :
    Comes host (Overtakes epochOf rooms fixed) (Ending (Settles host fixed n))
      (rekeyGroup sync roomId epoch p state) w := by
  have hstable : Stable host (Settles host fixed n) := fun _ _ _ _ h hr => h.step hshows hr
  refine comes_remote_bind (fun _ _ hr => ending_fail (hstable hn hr)) fun memberDevices h hr => ?_
  refine (comes_and (ends_of_unspent (unspent_localGroupMembers state roomId) hstable
    (hstable hn hr)) (comes_of_keeps (localGroupMembers_spec state roomId))).bind
      (fun localMembers w₁ h₁ => ?_) (fun _ _ h => ending_fail h.1.2) (fun _ h => absurd rfl h.1.1)
  dsimp only
  split
  case isTrue => exact ending_done h₁.1.2
  case isFalse =>
    refine (comes_and (ends_of_unspent (Unspent.foldlM (unspent_draftRemoval _ _) _ _) hstable
      h₁.1.2) (comes_of_keeps (keeps_drafts (fun _ _ _ => draftRemoval_spec) _ _))).bind
        (fun removed w₂ h₂ => ?_) (fun _ _ h => ending_fail h.1.2) (fun _ h => absurd rfl h.1.1)
    refine (comes_and (ends_of_unspent (Unspent.foldlM (unspent_draftAddition _ _ _) _ _) hstable
      h₂.1.2) (comes_of_keeps (keeps_drafts (fun _ _ _ => draftAddition_spec) _ _))).bind
        (fun draft w₃ h₃ => ?_) (fun _ _ h => ending_fail h.1.2) (fun _ h => absurd rfl h.1.1)
    have hsame : w₃.device = w.device := h₃.2.1.trans (h₂.2.1.trans h₁.2)
    have hdraft : Drafted host roomId epoch.membershipRevision (state, []) draft :=
      (h₂.2.2 _ rfl).trans (h₃.2.2 _ rfl)
    have hepochs := drafted_epochs hmls hdraft
    split
    case isTrue => exact ending_done h₃.1.2
    case isFalse =>
      refine comes_remote_bind (fun _ _ hr => ending_fail (hstable h₃.1.2 hr)) fun key h hr => ?_
      have hnow : Settles host fixed n h := hstable h₃.1.2 hr
      refine comes_store_bind fun hbeyond => ?_
      refine Always.bind (Q := fun o w' => Ending (Settles host fixed n) o w') ?_
        (fun _ _ h => ending_done h.2) (fun _ _ h => ending_fail h.2) (fun _ h => absurd rfl h.1)
      by_cases hfixed : fixed h
      · -- the plan goes beyond the epoch that is shown, so it is not taken back
        have hover : (rooms roomId).epoch.activeEpoch
            < epochOf state roomId + commitCount draft.2 :=
          hbeyond rfl hfixed state ((congrArg _ hsame).trans hstate)
        refine (resumePending_ends hkeeps (I := fixed) (fun _ _ _ _ h hr => hshows.stays h hr)
          hfixed fun op hop _ => ?_).imp fun _ _ h => ⟨h.1.1, .now h.1.2⟩
        cases hop
        refine resumeRekey_ends (J := fun _ => False) (fun _ _ _ _ h hr => hshows.stays h hr)
          (fun _ h => h.elim) (@fun _ _ _ last hI hr hlast hle => ?_) (fun _ _ _ h => h.elim) hfixed
        rw [hshows.epoch hI hr] at hle
        have hle' : last.epoch ≤ (rooms roomId).epoch.activeEpoch := hle
        have hlastEpoch : last.epoch = epochOf draft.1 roomId := hepochs.last _ hlast
        have hcount := hepochs.count
        omega
      · -- the rooms are not fixed yet
        obtain ⟨m, rfl⟩ : ∃ m, n = m + 1 := by
          cases n with
          | zero => exact absurd hnow.zero hfixed
          | succ m => exact ⟨m, rfl⟩
        refine (resumePending_ends hkeeps hstable hnow fun op hop _ => ?_).imp fun _ _ h => h.1
        cases hop
        exact resumeRekey_ends hstable (fun _ h => h.mono m.le_succ)
          (fun hI hr _ _ => hI.next hshows hr) (hsync m rfl) hnow

theorem reconcileGroup_ends (hmls : MlsEpochs host epochOf groupOf)
    (hshows : Shows host rooms fixed) (hkeeps : Syncs host sync)
    (hsync : ∀ m, m + 1 = n → ∀ label (w' : World σ ρ), w'.device.pending = none →
      Settles host fixed m w'.host → Comes host (Overtakes epochOf rooms fixed)
        (Ending (Settles host fixed m)) (sync label roomId) w')
    (hn : Settles host fixed n w.host) :
    Comes host (Overtakes epochOf rooms fixed) (Ending (Settles host fixed n))
      (reconcileGroup sync roomId) w := by
  have hstable : Stable host (Settles host fixed n) := fun _ _ _ _ h hr => h.step hshows hr
  refine comes_remote_bind (fun _ _ hr => ending_fail (hstable hn hr)) fun epoch h hr => ?_
  split
  case isFalse => exact ending_done (hstable hn hr)
  case isTrue =>
    refine comes_storedContext_bind (fun _ => ending_fail (hstable hn hr))
      fun p state _ hstate => ?_
    split
    case isFalse => exact ending_done (hstable hn hr)
    case isTrue => exact rekeyGroup_ends hmls hshows hkeeps hsync hstate (hstable hn hr)

/-! ## Pages -/

/-- How many of the shown control messages of a room the device has not read. -/
def unread (rooms : Uuid → RoomView) (roomId : Uuid) (p : DeviceProfile) : ℕ :=
  ((rooms roomId).log.filter fun m => decide (p.cursor roomId < m.sequenceNo)).length

theorem unread_le (p : DeviceProfile) : unread rooms roomId p ≤ (rooms roomId).log.length :=
  List.length_filter_le _ _

/-- Reading a page leaves less unread. -/
theorem unread_lt {p' : DeviceProfile} {last : ControlMessage}
    (hlast : (pageAfter ControlMessage.sequenceNo (rooms roomId).log (p.cursor roomId)
      controlPageLimit).getLast? = some last) (hp' : p'.cursor roomId = last.sequenceNo) :
    unread rooms roomId p' < unread rooms roomId p := by
  have hmem := List.mem_of_mem_take (List.mem_of_getLast? hlast)
  have hcursor : p.cursor roomId < last.sequenceNo := of_decide_eq_true (List.mem_filter.1 hmem).2
  have hfilter : (rooms roomId).log.filter (fun m => decide (p'.cursor roomId < m.sequenceNo))
      = ((rooms roomId).log.filter fun m => decide (p.cursor roomId < m.sequenceNo)).filter
        fun m => decide (p'.cursor roomId < m.sequenceNo) := by
    rw [List.filter_filter]
    refine List.filter_congr fun m _ => ?_
    rw [Bool.eq_iff_iff, Bool.and_eq_true, decide_eq_true_eq, decide_eq_true_eq]
    exact ⟨fun h => ⟨h, by omega⟩, fun h => h.1⟩
  rw [unread, unread, hfilter]
  refine List.length_filter_lt_length_iff_exists.2 ⟨last, hmem, ?_⟩
  rw [hp', decide_eq_true_eq]
  exact lt_irrefl _

/-- What ends well leaves the cursor of the room at a number. -/
abbrev Reads {α : Type} (roomId number : ℕ) (o : Outcome (clientEffects σ) α) (w' : World σ ρ) :
    Prop :=
  ∀ a, o = .done a → ∃ p, w'.device.profile = some p ∧ p.cursor roomId = number

variable {number : ℕ}

theorem reads_fail {α : Type} (err : ClientError) :
    Reads roomId number (.fail err : Outcome (clientEffects σ) α) w := by
  intro a h
  cases h

theorem reads_spent {α : Type} : Reads roomId number (.spent : Outcome (clientEffects σ) α) w := by
  intro a h
  cases h

/-- When the controls of a page have been completed, the cursor is at the last of them. -/
theorem resumeInbound_cursor {op : PendingOperation σ} (hpending : w.device.pending = some op)
    (hkind : op.kind = .inbound)
    (hlast : (op.controls.getLast?.bind (·.sequenceNo)) = some number) :
    Keeps host (Reads op.roomId number) (resumePending sync false) w := by
  refine keeps_inert_bind trivial rfl ?_
  simp only [DeviceStore.perform, hpending, hkind]
  have hinbound : Keeps host (Reads op.roomId number) (resumeInbound op) w := by
    refine keeps_requiredProfile_bind (reads_fail _) fun p hp => ?_
    refine always_store_bind.2 ⟨.finishInbound hpending hkind, ?_⟩
    rw [hlast]
    refine always_store_bind.2 ⟨.finishCursor hpending hkind hp hlast, ?_⟩
    have hcursor : (inboundProfile op p number).cursor op.roomId = number := by
      rw [inboundProfile]
      split <;> simp
    refine (consumeControls_spec op _ _).bind (fun _ w₁ h₁ => ?_) (fun _ _ _ => reads_fail _)
      (fun _ _ => reads_spent)
    have hsame : w₁.device.profile = some (inboundProfile op p number) := congrArg _ h₁
    have hstill : w₁.device.pending = some op := (congrArg _ h₁).trans hpending
    exact always_store.2 ⟨.empty hstill, fun _ _ => ⟨_, hsame, hcursor⟩⟩
  exact hinbound.bind (fun a w' h _ _ => h a rfl) (fun _ _ _ => reads_fail _)
    (fun _ _ => reads_spent)

/-- Enough fuel for the loop over the pages: before the rooms are fixed a page takes an answer,
after that it leaves less unread. -/
inductive Enough (host : Host σ ρ) (rooms : Uuid → RoomView) (fixed : ρ → Prop) (roomId : Uuid)
    (w : World σ ρ) : ℕ → Prop where
  | shown {fuel : ℕ} (hfixed : fixed w.host) (hpos : 0 < fuel)
      (hunread : ∀ p, w.device.profile = some p → unread rooms roomId p < fuel) :
      Enough host rooms fixed roomId w fuel
  | settling {n fuel : ℕ} (hn : Settles host fixed n w.host)
      (hfuel : n + (rooms roomId).log.length < fuel) : Enough host rooms fixed roomId w fuel

theorem not_enough_zero (h : Enough host rooms fixed roomId w 0) : False := by
  cases h with
  | shown _ hpos _ => exact lt_irrefl _ hpos
  | settling _ hfuel => exact Nat.not_lt_zero _ hfuel

/-- A page has been read. -/
theorem Enough.next (hshows : Shows host rooms fixed) {w' : World σ ρ} {fuel : ℕ} {h : ρ}
    {p' : DeviceProfile} {messages : List ControlMessage} {last : ControlMessage}
    (henough : Enough host rooms fixed roomId w (fuel + 1)) (hp : w.device.profile = some p)
    (hr : host w.host (.api (.listControlMessages roomId p.deviceId (p.cursor roomId)
      controlPageLimit)) (.ok messages) h) (hlast : messages.getLast? = some last)
    (hsince : Since host h w'.host) (hp' : w'.device.profile = some p')
    (hcursor : p'.cursor roomId = last.sequenceNo) : Enough host rooms fixed roomId w' fuel := by
  have hread : fixed w.host → unread rooms roomId p < fuel + 1 →
      Enough host rooms fixed roomId w' fuel := fun hfixed hlt => by
    rw [hshows.log hfixed hr] at hlast
    have hless := unread_lt hlast hcursor
    refine .shown (hsince fixed (fun _ _ _ _ h hr => hshows.stays h hr)
      (hshows.stays hfixed hr)) (by omega) fun q hq => ?_
    cases hp'.symm.trans hq
    omega
  cases henough with
  | shown hfixed _ hunread => exact hread hfixed (hunread p hp)
  | @settling n _ hn hfuel =>
    cases n with
    | zero =>
      have hle : unread rooms roomId p ≤ (rooms roomId).log.length := unread_le p
      exact hread hn.zero (by omega)
    | succ n =>
      exact .settling (hsince _ (fun _ _ _ _ h hr => h.step hshows hr) (hn.next hshows hr))
        (by omega)

/-- The loop over the pages ends. -/
theorem syncPages_ends (hshows : Shows host rooms fixed) (hkeeps : Syncs host sync)
    {C : World σ ρ → Effect σ → Prop} :
    ∀ (fuel : ℕ) (w : World σ ρ), w.device.pending = none →
      Enough host rooms fixed roomId w fuel →
      Comes host C (fun o _ => o ≠ .spent) (syncPages sync roomId fuel) w
  | 0, _, _, henough => (not_enough_zero henough).elim
  | fuel + 1, w, hpending, henough => by
    rw [syncPages]
    refine comes_storedContext_bind (fun _ => fail_ne_spent _) fun p state hp _ => ?_
    refine comes_remote_bind (fun _ _ _ => fail_ne_spent _) fun messages h hr => ?_
    cases hlast : messages.getLast? with
    | none => exact done_ne_spent _
    | some last =>
      refine (comes_and (ends_of_unspent (unspent_applyControlBatch p state roomId messages)
        (Since.stable h) fun _ _ hI => hI) (comes_of_keeps applyControlBatch_spec)).bind
          (fun next w₁ h₁ => ?_) (fun _ _ _ => fail_ne_spent _)
          (fun _ h => absurd rfl h.1.1)
      have hsame : w₁.device = w.device := h₁.2.1
      cases next with
      | none => exact done_ne_spent _
      | some nextState =>
        refine comes_store_bind fun _ => ?_
        have hcontrols : (messages.map ControlMessage.pending).getLast?.bind (·.sequenceNo)
            = some last.sequenceNo := by
          rw [List.getLast?_map, hlast]
          rfl
        refine Always.bind (comes_and (resumePending_ends hkeeps (Since.stable h) h₁.1.2
          fun op hop hkind => by cases hop; cases hkind)
          (comes_of_keeps (resumeInbound_cursor rfl rfl hcontrols))) (fun _ w₂ h₂ => ?_)
            (fun _ _ _ => fail_ne_spent _) (fun _ h => absurd rfl h.1.1.1)
        obtain ⟨⟨hended, hempty⟩, hread⟩ := h₂
        split
        case isTrue => exact done_ne_spent _
        case isFalse =>
          obtain ⟨p', hp', hcursor⟩ := hread _ rfl
          exact syncPages_ends hshows hkeeps fuel w₂ (hempty _ rfl) (henough.next hshows hp hr hlast
            hended.2 hp' hcursor)

/-! ## Synchronisation -/

/-- One round ends: where it meets a pending rekey, and where its own plan is taken back, the
round within it does. -/
theorem syncRound_ends (hmls : MlsEpochs host epochOf groupOf) (hshows : Shows host rooms fixed)
    {accountId : Uuid} {fuel : ℕ} (deviceLabel : String) (hn : Settles host fixed n w.host)
    (hfuel : n + (rooms roomId).log.length < fuel)
    (hpending : ∀ op, w.device.pending = some op → ∀ label (w' : World σ ρ),
      w'.device.pending = none → Settles host fixed n w'.host →
      Comes host (Overtakes epochOf rooms fixed) (Ending (Settles host fixed n))
        (syncControls accountId fuel label op.roomId) w')
    (hsync : ∀ m, m + 1 = n → ∀ label (w' : World σ ρ), w'.device.pending = none →
      Settles host fixed m w'.host → Comes host (Overtakes epochOf rooms fixed)
        (Ending (Settles host fixed m)) (syncControls accountId fuel label roomId) w') :
    Comes host (Overtakes epochOf rooms fixed) (Ending (Settles host fixed n))
      (syncControls accountId (fuel + 1) deviceLabel roomId) w := by
  have hstable : Stable host (Settles host fixed n) := fun _ _ _ _ h hr => h.step hshows hr
  have hkeeps : Syncs host (syncControls accountId fuel : String → Uuid → Act σ Unit) :=
    syncControls_permitted accountId fuel
  refine comes_ending ?_ hstable hn
  refine (resumePending_ends hkeeps hstable hn fun op hop _ => ?_).bind (fun _ w₁ h₁ => ?_)
    (fun _ _ _ => fail_ne_spent _) (fun _ h => absurd rfl h.1.1)
  · exact resumeRekey_ends hstable (fun _ h => h) (fun hI hr _ _ => hstable hI hr)
      (hpending op hop) hn
  · refine (comes_and (ends_of_unspent (unspent_ensureReady accountId deviceLabel) hstable h₁.1.2)
      (comes_of_keeps (ensureReady_spec accountId deviceLabel))).bind (fun _ w₂ h₂ => ?_)
      (fun _ _ _ => fail_ne_spent _) (fun _ h => absurd rfl h.1.1)
    have hempty : w₂.device.pending = none := h₂.2.1.1.trans (h₁.2 _ rfl)
    refine (comes_and (reconcileGroup_ends hmls hshows hkeeps hsync h₂.1.2)
      (comes_of_keeps (reconcileGroup_spec hkeeps roomId hempty))).bind (fun _ w₃ h₃ => ?_)
      (fun _ _ _ => fail_ne_spent _) (fun _ h => absurd rfl h.1.1)
    exact syncPages_ends hshows hkeeps fuel w₃ (h₃.2 _ rfl) (.settling h₃.1.2 hfuel)

/-- Synchronisation ends, where the slot for a pending operation is empty. -/
theorem syncControls_ends (hmls : MlsEpochs host epochOf groupOf) (hshows : Shows host rooms fixed)
    (accountId : Uuid) :
    ∀ (fuel n : ℕ) (deviceLabel : String) (w : World σ ρ), w.device.pending = none →
      Settles host fixed n w.host → n + (rooms roomId).log.length + 1 < fuel →
      Comes host (Overtakes epochOf rooms fixed) (Ending (Settles host fixed n))
        (syncControls accountId fuel deviceLabel roomId) w := by
  intro fuel
  induction fuel with
  | zero => exact fun _ _ _ _ _ hfuel => absurd hfuel (Nat.not_lt_zero _)
  | succ fuel ih =>
    intro n deviceLabel w hpending hn hfuel
    refine syncRound_ends hmls hshows deviceLabel hn (by omega) ?_ ?_
    · rw [hpending]
      exact fun _ h => absurd h (Option.some_ne_none _).symm
    · exact fun m hm label w' hempty hsettles => ih m label w' hempty hsettles (by omega)

/-- **Synchronisation ends**, whatever is stored and whatever the servers answer until the rooms
are fixed, if from then on every rekey that is planned goes beyond the epoch its room is shown
at. -/
theorem sync_terminates (hmls : MlsEpochs host epochOf groupOf) (hshows : Shows host rooms fixed)
    (hn : Settles host fixed n w.host) (accountId : Uuid) (deviceLabel : String) (roomId : Uuid) :
    ∃ bound, ∀ fuel, bound ≤ fuel → ∀ events w',
      ¬ Run (host.env.guard (Overtakes epochOf rooms fixed))
        (syncControls accountId fuel deviceLabel roomId) w events .spent w' := by
  -- a rekey that is pending may take synchronisation through another room first
  obtain ⟨other, hother⟩ : ∃ other, ∀ op, w.device.pending = some op → op.roomId = other := by
    cases w.device.pending with
    | none => exact ⟨roomId, fun _ h => absurd h (Option.some_ne_none _).symm⟩
    | some op => exact ⟨op.roomId, fun op' h => by cases h; rfl⟩
  refine ⟨n + (rooms roomId).log.length + (rooms other).log.length + 3,
    fun fuel hle events w' hrun => ?_⟩
  obtain ⟨fuel, rfl⟩ : ∃ k, fuel = k + 1 := ⟨fuel - 1, by omega⟩
  have hends : Comes host (Overtakes epochOf rooms fixed) (Ending (Settles host fixed n))
      (syncControls accountId (fuel + 1) deviceLabel roomId) w :=
    syncRound_ends hmls hshows deviceLabel hn (by omega)
    (fun op hop label w' hempty hsettles => by
      have hlog : (rooms op.roomId).log.length = (rooms other).log.length := by rw [hother op hop]
      exact syncControls_ends hmls hshows accountId fuel n label w' hempty hsettles (by omega))
    (fun m _ label w' hempty hsettles =>
      syncControls_ends hmls hshows accountId fuel m label w' hempty hsettles (by omega))
  exact (hends.ends (o := .spent) hrun).1 rfl

end

/-! ## A device that is left behind -/

namespace Sample

/-- A room that waits for a rekey at epoch 3, and offers the Commits of the epochs 2 and 3. -/
def aheadRoom (room : Uuid) : RoomView where
  epoch := ⟨room, 3, 3, .rekeyRequired, 0⟩
  log := [⟨80, room, 2, 2, 41, none, .commit, countingEnvelope room 2, 80, 1, 0⟩,
    ⟨81, room, 3, 2, 41, none, .commit, countingEnvelope room 3, 81, 2, 0⟩]

/-- The server shows the rooms so, with the users 5 and 8 left in them; what it is sent is
refused. -/
def aheadApi : Unit → (e : ApiRequest) → Except ClientError e.Reply × Unit
  | h, .getRoomEpoch room => (.ok (aheadRoom room).epoch, h)
  | h, .listRoomMemberDevices _ => (.ok [⟨5, [21]⟩, ⟨8, [41]⟩], h)
  | h, .listControlMessages room _ after limit =>
    (.ok (pageAfter ControlMessage.sequenceNo (aheadRoom room).log after limit), h)
  | h, _ => (.error (.api 409), h)

/-- Room 7 at an epoch, still with the device of user 6. -/
def stateAt (epoch : ℕ) : CountingState :=
  CountingState.initial.enter 7 epoch [⟨5, 21⟩, ⟨8, 41⟩, ⟨6, 31⟩]

/-- Device 21, which has joined it. -/
def unreadProfile : DeviceProfile where
  deviceId := 21
  deviceLabel := "phone"
  registered := true
  keyPackagePublished := true
  deviceStatus := .active
  lastControlSequences := fun _ => none
  lastCommitMessageIds := Function.update (fun _ => none) 7 (some 79)

/-- The device with room 7 at an epoch, and nothing read since it joined. -/
def memberAt (epoch : ℕ) (next : Uuid) : World CountingState (Unit × Uuid) where
  device := ⟨some (stateAt epoch), some unreadProfile, none, fun _ => none, none⟩
  host := ((), next)

theorem shows_ahead : Shows (Host.of (countingHost aheadApi)) aheadRoom fun _ => True where
  stays _ _ := trivial
  epoch _ hr := by
    cases hr
    rfl
  log _ hr := by
    cases hr
    rfl

/-- A round comes back to where it started. -/
theorem exec_behind (fuel : ℕ) (next : Uuid) :
    (exec (worldHandler (countingHost aheadApi)) (syncControls 5 fuel "phone" 7)
      (memberAt 1 next)).1 = .spent := by
  induction fuel generalizing next with
  | zero => rfl
  | succ fuel ih =>
    have hresume : exec (worldHandler (countingHost aheadApi))
        (resumePending (syncControls 5 fuel) false) (memberAt 1 next)
          = (.done none, memberAt 1 next) := rfl
    have hready : exec (worldHandler (countingHost aheadApi)) (ensureReady 5 "phone")
        (memberAt 1 next) = (.done (unreadProfile, stateAt 1), memberAt 1 next) := rfl
    have hround : exec (worldHandler (countingHost aheadApi))
        (reconcileGroup (syncControls 5 fuel) 7) (memberAt 1 next)
          = exec (worldHandler (countingHost aheadApi)) ((syncControls 5 fuel "phone" 7 >>=
              fun _ => pure (none : Option Uuid)) >>= fun _ => pure ())
              (memberAt 1 (next + 2)) := rfl
    obtain ⟨w', hnested⟩ : ∃ w', exec (worldHandler (countingHost aheadApi))
        (syncControls 5 fuel "phone" 7) (memberAt 1 (next + 2)) = (.spent, w') :=
      ⟨_, Prod.ext (ih (next + 2)) rfl⟩
    rw [exec_bind, exec_bind, hnested] at hround
    rw [syncControls, exec_bind, hresume]
    simp only [exec_bind, hready, hround]

end Sample

open Sample

/-- No fuel is enough: the device plans the Commit of epoch 2 again and again, and never gets to
the pages. -/
theorem sync_left_behind :
    Shows (Host.of (countingHost aheadApi)) aheadRoom (fun _ => True) ∧
      ¬ ∃ bound, ∀ fuel, bound ≤ fuel → ∀ events w',
        ¬ Run (Host.of (countingHost aheadApi)).env
          (syncControls 5 fuel "phone" 7) (memberAt 1 60) events .spent w' := by
  refine ⟨shows_ahead, fun ⟨bound, hbound⟩ => ?_⟩
  obtain ⟨events, hrun⟩ := run_exec (h := worldHandler (countingHost aheadApi))
    (syncControls 5 bound "phone" 7) (memberAt 1 60)
  rw [exec_behind bound 60, env_worldHandler] at hrun
  exact hbound bound le_rfl _ _ hrun

/-- A device at the epoch of the room goes beyond it. -/
theorem sync_terminates_sample : ∃ bound, ∀ fuel, bound ≤ fuel → ∀ events w',
    ¬ Run ((Host.of (countingHost aheadApi)).env.guard
        (Overtakes CountingState.epochs aheadRoom fun _ => True))
      (syncControls 5 fuel "phone" 7) (memberAt 3 60) events .spent w' :=
  sync_terminates (mlsEpochs_counting _) shows_ahead (.now (n := 0) trivial) 5 "phone" 7

end RedcodeIm
