import RedcodeIm.Runtime.Gate

/-!
# The gate and the mode

The gate says whether end-to-end encryption is active, and the audit mode says it again to
the paths that send.  Activation and rollback write both in one transaction; the preflight
writes the gate alone, and the update of the settings the mode alone.

* `StoredE2ee`, `GateAgrees` — the mode is e2ee; it is so just where the gate is active.
* `GateCall` — the four endpoints, which any number of administrators may call at once.
* `GateWrites` — what they write, `GateCall.uses`.
* `Admissible` — the state in which a write belongs; `kept_iff` says that in any other it
  parts the gate from the mode, or activates what was rolled back.
* `gate_consistency` — where every write is admissible, whatever the order of the statements.
* `gate_parted` — a preflight while the gate is active.
-/

namespace RedcodeIm

open Awaiting Interleaving

/-! ## The property -/

/-- The stored audit mode is e2ee, as `is_e2ee_runtime` reads it. -/
def StoredE2ee (s : ServiceState) : Prop :=
  storedMode MessageContentAuditMode.parse .plaintext (s.settings messageContentAuditModeKey) =
    .ok .e2ee

/-- The gate is active just where the mode is e2ee. -/
def GateAgrees (s : ServiceState) : Prop :=
  s.gate.state = .active ↔ StoredE2ee s

/-- Where the mode becomes e2ee, the gate was in preflight. -/
def EntersPrepared (s s' : ServiceState) : Prop :=
  StoredE2ee s' → ¬ StoredE2ee s → s.gate.state = .prepare

/-! ## The calls -/

/-- A call of one of the endpoints. -/
inductive GateCall where
  | prepare (adminId : Option Uuid)
  | active (adminId : Option Uuid)
  | rollback (adminId : Option Uuid)
  | updateSettings (editorId : Uuid) (serverStorageMode contentAuditMode : String)

inductive GateReply where
  | view (view : E2eeRuntimeGateView)
  | settings (settings : MessageRuntimeSettings)

def GateCall.program : GateCall → ServiceAction GateReply
  | .prepare adminId => do return .view (← prepareE2eeRuntime adminId)
  | .active adminId => do return .view (← activeE2eeRuntime adminId)
  | .rollback adminId => do return .view (← rollbackE2eeRuntime adminId)
  | .updateSettings editorId serverStorageMode contentAuditMode => do
    return .settings
      (← updateMessageRuntimeSettingsAdmin editorId serverStorageMode contentAuditMode)

/-- The programs of the calls. -/
def IsGateCall (p : ServiceAction GateReply) : Prop := ∃ call : GateCall, p = call.program

/-- The reads, and the writes of the endpoints: the gate alone goes into preflight, and the
settings alone never to e2ee. -/
def GateWrites : ServiceEffect → Prop
  | .updateGate state _ _ _ => state = .prepare
  | .upsertGeneralSettingsAtomic settings _ =>
    ∃ serverStorageMode, settings = messageRuntimeInputs serverStorageMode .plaintext
  | .message _ => False
  | _ => True

variable (gate : E2eeRuntimeGateRecord)

theorem uses_computeReadiness : (computeReadiness gate).Uses GateWrites := by
  refine uses_await_bind trivial fun devices => ?_
  refine uses_await_bind trivial fun inventory => ?_
  exact uses_await_bind trivial fun pending => trivial

theorem uses_readinessExpired (computedAt : Option Timestamp) :
    (readinessExpired computedAt).Uses GateWrites := by
  cases computedAt with
  | none => trivial
  | some computed => exact uses_await_bind trivial fun now => trivial

theorem uses_buildGateView (readiness : ReadinessView) :
    (buildGateView gate readiness).Uses GateWrites := by
  refine (uses_loadMessageRuntimeSettings fun _ => trivial).bind fun runtime => ?_
  exact (uses_readinessExpired gate.readinessComputedAt).bind fun expired => trivial

variable (adminId : Option Uuid)

theorem uses_prepareE2eeRuntime : (prepareE2eeRuntime adminId).Uses GateWrites := by
  refine uses_await_bind trivial fun gate => ?_
  refine (uses_computeReadiness gate).bind fun readiness => ?_
  refine uses_await_bind trivial fun now => ?_
  refine uses_await_bind rfl fun _ => ?_
  exact uses_await_bind trivial fun gate' => uses_buildGateView gate' readiness

theorem uses_activeE2eeRuntime : (activeE2eeRuntime adminId).Uses GateWrites := by
  refine uses_await_bind trivial fun gate => ?_
  split
  · trivial
  · refine (uses_computeReadiness gate).bind fun readiness => ?_
    split
    · refine uses_await_bind trivial fun _ => ?_
      exact uses_await_bind trivial fun gate' => uses_buildGateView gate' readiness
    · trivial

theorem uses_rollbackE2eeRuntime : (rollbackE2eeRuntime adminId).Uses GateWrites := by
  refine uses_await_bind trivial fun _ => ?_
  refine uses_await_bind trivial fun gate => ?_
  refine (uses_computeReadiness gate).bind fun readiness => ?_
  exact uses_buildGateView gate readiness

theorem uses_updateMessageRuntimeSettingsAdmin (editorId : Uuid)
    (serverStorageMode contentAuditMode : String) :
    (updateMessageRuntimeSettingsAdmin editorId serverStorageMode contentAuditMode).Uses
      GateWrites := by
  refine uses_ensure_bind fun storage _ => ?_
  refine uses_ensure_bind fun audit _ => ?_
  split
  · trivial
  · rename_i hne
    have haudit : audit = .plaintext := by
      cases audit with
      | plaintext => rfl
      | e2ee => exact absurd rfl hne
    refine uses_await_bind ⟨storage, ?_⟩ fun _ => uses_loadMessageRuntimeSettings fun _ => trivial
    rw [haudit]

/-- What a call may write. -/
theorem GateCall.uses (call : GateCall) : call.program.Uses GateWrites := by
  cases call with
  | prepare adminId => exact (uses_prepareE2eeRuntime adminId).bind fun _ => trivial
  | active adminId => exact (uses_activeE2eeRuntime adminId).bind fun _ => trivial
  | rollback adminId => exact (uses_rollbackE2eeRuntime adminId).bind fun _ => trivial
  | updateSettings editorId storage audit =>
    exact (uses_updateMessageRuntimeSettingsAdmin editorId storage audit).bind fun _ => trivial

/-! ## One write -/

/-- The state a write belongs in: neither preflight nor settings change an active gate, and no
activation comes after a rollback. -/
def Admissible (s : ServiceState) : ServiceEffect → Prop
  | .updateGate .. => s.gate.state ≠ .active
  | .upsertGeneralSettingsAtomic .. => s.gate.state ≠ .active
  | .activateGateTransaction .. => s.gate.state ≠ .plaintext
  | _ => True

variable {s : ServiceState}

theorem storedE2ee_upsertSetting {by' : Option Uuid} {now : Timestamp}
    {mode : MessageContentAuditMode} :
    StoredE2ee (s.upsertSetting by' now (contentAuditModeInput mode)) ↔ mode = .e2ee := by
  unfold StoredE2ee ServiceState.upsertSetting
  simp [contentAuditModeInput, storedMode]

theorem upsert_messageRuntimeInputs {by' : Option Uuid} {now : Timestamp}
    {storage : MessageServerStorageMode} {audit : MessageContentAuditMode} :
    s.apply now (.upsertGeneralSettingsAtomic (messageRuntimeInputs storage audit) by') =
      (s.upsertSetting by' now ⟨messageServerStorageModeKey, storage.asStr,
        "消息服务器存储模式（persist=落库，relay_only=仅转发）"⟩).upsertSetting by' now
        (contentAuditModeInput audit) := rfl

variable {e : ServiceEffect}

/-- **A write** that the endpoints make keeps the gate and the mode together, and has the mode
become e2ee from a preflight, just where it is admissible. -/
theorem kept_iff (now : Timestamp) (h : GateAgrees s) (he : GateWrites e) :
    (GateAgrees (s.apply now e) ∧ EntersPrepared s (s.apply now e)) ↔ Admissible s e := by
  have hsame : GateAgrees s ∧ EntersPrepared s s := ⟨h, fun hs hns => absurd hs hns⟩
  cases e with
  | updateGate state revision computedAt updatedBy =>
    obtain rfl : state = .prepare := he
    have hmode : StoredE2ee (s.apply now (.updateGate .prepare revision computedAt updatedBy)) ↔
        StoredE2ee s := Iff.rfl
    have hgate : ¬ (s.apply now (.updateGate .prepare revision computedAt updatedBy)).gate.state =
        .active := by
      intro hactive
      cases hactive
    rw [GateAgrees, EntersPrepared, hmode, iff_false_left hgate]
    exact (and_iff_left hsame.2).trans (not_congr h).symm
  | activateGateTransaction revision adminId =>
    have hmode : StoredE2ee (s.apply now (.activateGateTransaction revision adminId)) :=
      storedE2ee_upsertSetting.mpr rfl
    have hagrees : GateAgrees (s.apply now (.activateGateTransaction revision adminId)) :=
      iff_of_true rfl hmode
    rw [and_iff_right hagrees, EntersPrepared, ← not_congr h]
    show (_ → ¬ s.gate.state = .active → s.gate.state = .prepare) ↔ s.gate.state ≠ .plaintext
    cases s.gate.state <;> simp [hmode]
  | rollbackGateTransaction adminId =>
    have hmode : ¬ StoredE2ee (s.apply now (.rollbackGateTransaction adminId)) := by
      intro hs
      cases storedE2ee_upsertSetting.mp hs
    refine iff_of_true ⟨iff_of_false ?_ hmode, fun hs => absurd hs hmode⟩ trivial
    intro hactive
    cases hactive
  | upsertGeneralSettingsAtomic settings updatedBy =>
    obtain ⟨storage, rfl⟩ := he
    have hmode : ¬ StoredE2ee (s.apply now (.upsertGeneralSettingsAtomic
        (messageRuntimeInputs storage .plaintext) updatedBy)) := by
      rw [upsert_messageRuntimeInputs, storedE2ee_upsertSetting]
      intro hs
      cases hs
    rw [GateAgrees, iff_false_right hmode, EntersPrepared]
    exact and_iff_left fun hs => absurd hs hmode
  | message e => cases he
  | _ => exact iff_of_true hsame trivial

/-! ## Every order of statements -/

/-- The statements of any number of calls, in the order they are carried out. -/
abbrev GateReach (env : Env Service ServiceState) :
    Pool Service ServiceState GateReply → Pool Service ServiceState GateReply → Prop :=
  Reach env IsGateCall

/-- A statement that keeps the gate and the mode together. -/
theorem gateAgrees_step {s' : ServiceState} {r : Service.Answer e} (h : GateAgrees s)
    (he : GateWrites e) (hstep : serviceEnv.guard Admissible s e r s') :
    GateAgrees s' ∧ EntersPrepared s s' := by
  obtain ⟨hadmissible, ⟨now, rfl, -⟩ | ⟨rfl, -⟩⟩ := hstep
  · exact (kept_iff now h he).mpr hadmissible
  · exact ⟨h, fun hs hns => absurd hs hns⟩

/-- **The gate agrees with the mode**, in every state that calls of the endpoints come to, in
whatever order their statements are carried out, as long as each write finds a state it belongs
in; and the mode becomes e2ee only out of a preflight.  Of any write that is next to be carried
out, this is so just where it is admissible. -/
theorem gate_consistency {s₀ : ServiceState} (h₀ : GateAgrees s₀)
    {pool : Pool Service ServiceState GateReply}
    (h : GateReach (serviceEnv.guard Admissible) ⟨s₀, []⟩ pool) :
    GateAgrees pool.world ∧
      (∀ pool', Step (serviceEnv.guard Admissible) IsGateCall pool pool' →
        EntersPrepared pool.world pool'.world) ∧
      ∀ e now, pool.Awaits e →
        ((GateAgrees (pool.world.apply now e) ∧
          EntersPrepared pool.world (pool.world.apply now e)) ↔ Admissible pool.world e) := by
  have hadmitted : ∀ p, IsGateCall p →
      Disciplined GateAgrees (serviceEnv.guard Admissible) GateWrites p := by
    rintro p ⟨call, rfl⟩
    exact .of_uses call.uses
  obtain ⟨hagrees, hrunning⟩ := Disciplined.holds hadmitted
    (fun _ _ _ _ hs he hstep => (gateAgrees_step hs he hstep).1) h h₀ (List.forall_mem_nil _)
  refine ⟨hagrees, fun pool' hstep => ?_, fun e now he => ?_⟩
  · cases hstep with
    | begin w running hp => exact fun hs hns => absurd hs hns
    | act before after henv =>
      have he := hrunning _ (List.mem_append_right _ List.mem_cons_self)
      exact (gateAgrees_step hagrees he.1 henv).2
  · exact kept_iff now hagrees (Disciplined.awaits hrunning he)

/-! ## An active gate in plaintext mode -/

/-- A database as it is migrated, with the security review approved. -/
def approved : ServiceState where
  gate :=
    { state := .plaintext
      readinessRevision := 0
      readinessComputedAt := none
      minClientVersions := .object [("android", some "0.1.0"), ("ios", some "0.1.0"),
        ("h5", some "0.1.0"), ("desktop", some "0.1.0")]
      requiredCoveragePercent := 100
      keyPackageLowWatermark := 10
      securityReviewApproved := true
      updatedAt := 0
      updatedBy := none }
  settings := fun _ => none
  messages := .empty
  parts := fun _ => []

/-- Every statement is carried out and answered; there is one device, up to date. -/
def oneDevice : Handler Service ServiceState
  | s, .readGate => (.ok s.gate, s)
  | s, .getGeneralSetting key => (.ok (s.settings key), s)
  | s, .listActiveDeviceCapabilities => (.ok [⟨21, 5, .active, some "h5", some "0.1.0", none⟩], s)
  | s, .listActiveDeviceInventory _ => (.ok [], s)
  | s, .countPendingApprovalDevices => (.ok (0 : ℕ), s)
  | s, .utcNow => (.ok (1 : ℕ), s)
  | s, .updateGate state revision computedAt updatedBy =>
    (.ok (), s.apply 1 (.updateGate state revision computedAt updatedBy))
  | s, .activateGateTransaction revision adminId =>
    (.ok (), s.apply 1 (.activateGateTransaction revision adminId))
  | s, .rollbackGateTransaction adminId => (.ok (), s.apply 1 (.rollbackGateTransaction adminId))
  | s, .upsertGeneralSettingsAtomic settings updatedBy =>
    (.ok (), s.apply 1 (.upsertGeneralSettingsAtomic settings updatedBy))
  | s, .message _ => (.error .databaseError, s)

theorem serviceEnv_oneDevice {s' : ServiceState} {r : Service.Answer e} (h : oneDevice.env s e r s')
    : serviceEnv s e r s' := by
  cases e with
  | readGate | getGeneralSetting =>
    cases h
    exact .inl ⟨0, rfl, fun a ha => (Except.ok.inj ha).symm⟩
  | message e =>
    cases h
    exact .inr ⟨rfl, .databaseError, rfl⟩
  | _ =>
    cases h
    exact .inl ⟨1, rfl, fun _ _ => trivial⟩

/-- The calls one after another, each of them alone. -/
def afterCalls (calls : List GateCall) (s : ServiceState) : ServiceState :=
  calls.foldl (fun s call => (Action.exec oneDevice call.program s).2) s

theorem reach_afterCalls {s₀ : ServiceState}
    {pool : Pool Service ServiceState GateReply} (h : GateReach serviceEnv ⟨s₀, []⟩ pool) :
    ∀ calls, ∃ running, GateReach serviceEnv ⟨s₀, []⟩ ⟨afterCalls calls pool.world, running⟩ := by
  intro calls
  induction calls generalizing pool with
  | nil => exact ⟨pool.running, h⟩
  | cons call calls ih =>
    obtain ⟨events, hrun⟩ := Action.run_exec (h := oneDevice) call.program pool.world
    exact ih (h.trans
      (Reach.run (hrun.mono fun _ _ _ _ => serviceEnv_oneDevice) ⟨call, rfl⟩ pool.running))

/-- The settings are put to plaintext while the gate is active, and it stays active. -/
theorem gate_parted :
    ¬ ∀ pool : Pool Service ServiceState GateReply,
      GateReach serviceEnv ⟨approved, []⟩ pool → GateAgrees pool.world := by
  intro h
  obtain ⟨running, hreach⟩ := reach_afterCalls .refl
    [.prepare none, .active none, .updateSettings 1 "persist" "plaintext"]
  have hagrees := h _ hreach
  have hactive : (afterCalls [.prepare none, .active none, .updateSettings 1 "persist" "plaintext"]
      approved).gate.state = .active := by decide +kernel
  have hvalue : ((afterCalls [.prepare none, .active none,
      .updateSettings 1 "persist" "plaintext"] approved).settings messageContentAuditModeKey).map
      (·.value) = some MessageContentAuditMode.plaintext.asStr := by decide +kernel
  have hstored := hagrees.mp hactive
  obtain ⟨record, hrecord, hrvalue⟩ := Option.map_eq_some_iff.mp hvalue
  rw [StoredE2ee, hrecord, storedMode, hrvalue, MessageContentAuditMode.parse_asStr] at hstored
  cases hstored

theorem gateAgrees_approved : GateAgrees approved := by
  refine iff_of_false (by decide) ?_
  intro h
  cases h

/-- A rollback. -/
theorem gate_consistency_sample :
    GateAgrees (approved.apply 1 (.rollbackGateTransaction none)) := by
  have hrollback : serviceEnv.guard Admissible approved (.rollbackGateTransaction none) (.ok ())
      (approved.apply 1 (.rollbackGateTransaction none)) :=
    ⟨trivial, .inl ⟨1, rfl, fun _ _ => trivial⟩⟩
  exact (gate_consistency gateAgrees_approved
    (.tail (.single (.begin approved [] ⟨.rollback none, rfl⟩)) (.act [] [] hrollback))).1

end RedcodeIm
