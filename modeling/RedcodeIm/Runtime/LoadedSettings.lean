import RedcodeIm.Runtime.GateConsistency

/-!
# The settings that are loaded

`load_message_runtime_settings` reads the two modes in two statements, and a transaction between
them may change both.

* `loads_modes` — which states the modes come from.
* `at_one_moment` — where they were in force together.
-/

namespace RedcodeIm.LoadedSettings

open Awaiting

/-- A transaction of an update, an activation or a rollback, or a statement on the gate. -/
def Follows (s s' : ServiceState) : Prop := ∃ now e, GateWrites e ∧ s' = s.apply now e

/-- A call that reads the first of the states and, after the others' transactions, the last. -/
def Loads (moments : List ServiceState) (settings : MessageRuntimeSettings) : Prop :=
  moments.IsChain Follows ∧ ∃ first ∈ moments.head?, ∃ last ∈ moments.getLast?,
    ∃ event event' rest,
      Action.Run serviceEnv loadMessageRuntimeSettings first [event] rest first ∧
      Action.Run serviceEnv rest last [event'] (.done settings) last

def storageMode (s : ServiceState) : Except AppError MessageServerStorageMode :=
  storedMode MessageServerStorageMode.parse .persist (s.settings messageServerStorageModeKey)

def auditMode (s : ServiceState) : Except AppError MessageContentAuditMode :=
  storedMode MessageContentAuditMode.parse .plaintext (s.settings messageContentAuditModeKey)

def InForce (settings : MessageRuntimeSettings) (s : ServiceState) : Prop :=
  storageMode s = .ok settings.serverStorageMode ∧ auditMode s = .ok settings.contentAuditMode

/-- The modes that are loaded were in force at one moment, if the states meet the condition. -/
def AtOneMoment (condition : List ServiceState → Prop) (moments : List ServiceState) : Prop :=
  condition moments → ∀ settings, Loads moments settings → ∃ s ∈ moments, InForce settings s

/-- One of the modes is at the second read what it was at the first. -/
def OneModeKept (moments : List ServiceState) : Prop :=
  ∀ first ∈ moments.head?, ∀ last ∈ moments.getLast?,
    storageMode first = storageMode last ∨ auditMode first = auditMode last

/-- A statement that reads a setting. -/
theorem run_getGeneralSetting {s s' : ServiceState} {key : String} {event : Event Service}
    {f : Option GeneralSettingRecord → ServiceAction MessageRuntimeSettings}
    {rest : ServiceAction MessageRuntimeSettings}
    (h : Action.Run serviceEnv (await (.getGeneralSetting key) >>= f) s [event] rest s') :
    rest = f (s.settings key) ∨ ∃ err, rest = .fail err := by
  change Action.Run serviceEnv (.await (.getGeneralSetting key) _) s [event] rest s' at h
  cases h with
  | @step _ _ _ _ _ r _ _ he hrest =>
    cases r with
    | error err =>
      cases hrest
      exact .inr ⟨err, rfl⟩
    | ok record =>
      change Action.Run serviceEnv (f record) _ _ _ _ at hrest
      generalize hp : f record = p at hrest
      cases hrest
      subst hp
      obtain ⟨now, -, hanswers⟩ | ⟨-, err, herr⟩ := he
      · exact .inl (congrArg f (hanswers record rfl))
      · cases herr

/-- The storage mode is that of the first state, the audit mode that of the last. -/
theorem loads_modes {moments : List ServiceState} {settings : MessageRuntimeSettings}
    (h : Loads moments settings) :
    ∃ first ∈ moments.head?, ∃ last ∈ moments.getLast?,
      storageMode first = .ok settings.serverStorageMode ∧
      auditMode last = .ok settings.contentAuditMode := by
  obtain ⟨-, first, hfirst, last, hlast, event, event', rest, hrun, hrun'⟩ := h
  refine ⟨first, hfirst, last, hlast, ?_⟩
  obtain rfl | ⟨err, rfl⟩ := run_getGeneralSetting hrun
  · obtain hdone | ⟨err, hfail⟩ := run_getGeneralSetting hrun'
    · generalize mergeMessageRuntimeMetadata _ _ = metadata at hdone
      obtain ⟨updatedAt, updatedBy⟩ := metadata
      change Action.done settings = (ensure (storageMode first) >>= fun serverStorageMode =>
        ensure (auditMode last) >>= fun contentAuditMode =>
          .done ⟨serverStorageMode, contentAuditMode, updatedAt, updatedBy⟩) at hdone
      cases hfirstMode : storageMode first with
      | error err =>
        rw [hfirstMode] at hdone
        cases hdone
      | ok serverStorageMode =>
        cases hlastMode : auditMode last with
        | error err =>
          rw [hfirstMode, hlastMode] at hdone
          cases hdone
        | ok contentAuditMode =>
          rw [hfirstMode, hlastMode] at hdone
          cases hdone
          exact ⟨rfl, rfl⟩
    · cases hfail
  · cases hrun'

/-- **The modes that are loaded were in force together** where a transaction between the two
reads has not changed both of them. -/
theorem at_one_moment (moments : List ServiceState) : AtOneMoment OneModeKept moments := by
  intro hkept settings hloads
  obtain ⟨first, hfirst, last, hlast, hstorage, haudit⟩ := loads_modes hloads
  rcases hkept first hfirst last hlast with hsame | hsame
  · exact ⟨last, List.mem_of_mem_getLast? hlast, hsame ▸ hstorage, haudit⟩
  · exact ⟨first, List.mem_of_mem_head? hfirst, hstorage, hsame ▸ haudit⟩

/-- Relayed messages and an active gate. -/
def relaying : ServiceState :=
  (approved.apply 1 (.upsertGeneralSettingsAtomic (messageRuntimeInputs .relayOnly .plaintext)
    none)).apply 1 (.activateGateTransaction 1 none)

/-- Stored messages in plaintext. -/
def persisting : ServiceState :=
  relaying.apply 2 (.upsertGeneralSettingsAtomic (messageRuntimeInputs .persist .plaintext) none)

/-- An update between the reads: messages are relayed in plaintext, as nobody has set. -/
theorem relayed_in_plaintext : ¬ ∀ moments, AtOneMoment (fun _ => True) moments := by
  intro h
  have hread : ∀ s key, serviceEnv s (.getGeneralSetting key) (.ok (s.settings key)) s :=
    fun s key => .inl ⟨0, rfl, fun a ha => (Except.ok.inj ha).symm⟩
  have hrelayed : storageMode relaying = .ok .relayOnly := by decide +kernel
  have hplain : auditMode persisting = .ok .plaintext := by decide +kernel
  have hloads : Loads [relaying, persisting] ⟨.relayOnly, .plaintext, some 2, none⟩ := by
    refine ⟨?_, relaying, rfl, persisting, rfl, _, _, _, .step (hread _ _) (.refl _ _),
      .step (hread _ _) ?_⟩
    · simpa using show Follows relaying persisting from
        ⟨2, .upsertGeneralSettingsAtomic _ none, ⟨.persist, rfl⟩, rfl⟩
    · change Action.Run serviceEnv (ensure (storageMode relaying) >>= fun serverStorageMode =>
        ensure (auditMode persisting) >>= fun contentAuditMode =>
          .done (MessageRuntimeSettings.mk serverStorageMode contentAuditMode (some 2) none))
        _ _ _ _
      rw [hrelayed, hplain]
      exact .refl _ _
  obtain ⟨s, hs, hstorage, haudit⟩ := h _ trivial _ hloads
  obtain rfl | rfl := List.mem_pair.1 hs
  · exact absurd haudit (by decide +kernel)
  · exact absurd hstorage (by decide +kernel)

end RedcodeIm.LoadedSettings
